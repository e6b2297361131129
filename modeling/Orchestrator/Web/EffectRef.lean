import Orchestrator.Lib.Base64
import Orchestrator.Lib.Outcome
import Orchestrator.Lib.PyText

/-!
The references that a Replicate webhook carries, `encoded.signature`.

The first part spells the effect key in base64, the second is the signature of
the organization's slug and the key. The decoder of the first part is lenient,
so a key has many spellings; the second part is compared as text.
-/

namespace Orchestrator

/-- What the functions of the webhook raise. -/
inductive WebhookException where
  | replicateWebhookError (message : String)
  | unicodeEncodeError
  | typeError
  | overflowError
  | valueError
  | recursionError
  | indexError
  deriving DecidableEq

/-- `hmac.new(key, message, sha256).digest()`, without collisions. -/
structure HmacSha256 where
  digest : List UInt8 → List UInt8 → List UInt8
  injective : ∀ key, Function.Injective (digest key)

/-- A slug that the route admits: `[a-z0-9][a-z0-9-]{0,62}`. -/
structure OrganizationSlug where
  first : Char
  rest : List Char
  first_ok : first.isLower || first.isDigit
  rest_ok : rest.all fun c => c.isLower || c.isDigit || c = '-'
  length_le : rest.length ≤ 62

def OrganizationSlug.text (slug : OrganizationSlug) : PyText :=
  PyText.ofChars (slug.first :: slug.rest)

def invalidCorrelation : WebhookException := .replicateWebhookError "invalid webhook correlation"

/-- `text.encode()` where nothing catches the error. -/
def encodeText (text : PyText) : Except WebhookException (List UInt8) :=
  match text.encode with
  | some bytes => .ok bytes
  | none => .error .unicodeEncodeError

/-- `hmac.compare_digest` of two strings. -/
def compareDigest (a b : PyText) : Except WebhookException Bool :=
  if a.isAscii ∧ b.isAscii then .ok (a = b) else .error .typeError

def b64urlEncode (value : List UInt8) : PyText := PyText.ofChars (Base64.encode value)

/-- `_b64url_decode`: a text that is not ASCII is a `ValueError` of the decoder. -/
def b64urlDecode (value : PyText) : Except WebhookException (List UInt8) :=
  match (if value.isAscii then value.chars? else none) with
  | none => .error invalidCorrelation
  | some cs =>
      match Base64.decode (cs ++ Base64.padding cs) with
      | some bytes => .ok bytes
      | none => .error invalidCorrelation

variable (h : HmacSha256)

def buildEffectRef (organizationSlug effectKey secret : PyText) :
    Except WebhookException PyText := do
  let encoded := b64urlEncode (← encodeText effectKey)
  let key ← encodeText secret
  let message ← encodeText (organizationSlug ++ .scalar ':' :: effectKey)
  return encoded ++ .scalar '.' :: b64urlEncode (h.digest key message)

/-- `build_effect_ref(organization_slug, effect_key, secret).split(".", 1)[1]` -/
def expectedRefSignature (organizationSlug effectKey secret : PyText) :
    Except WebhookException PyText := do
  let built ← buildEffectRef h organizationSlug effectKey secret
  match built.splitOnce (.scalar '.') with
  | some (_, expected) => .ok expected
  | none => .error .indexError

def decodeEffectRef (organizationSlug effectRef secret : PyText) :
    Except WebhookException PyText := do
  match effectRef.splitOnce (.scalar '.') with
  | none => .error invalidCorrelation
  | some (encoded, suppliedSignature) =>
      match PyText.decode (← b64urlDecode encoded) with
      | none => .error invalidCorrelation
      | some effectKey =>
          let expected ← expectedRefSignature h organizationSlug effectKey secret
          if ← compareDigest suppliedSignature expected then .ok effectKey
          else .error invalidCorrelation

theorem b64urlEncode_isAscii (value : List UInt8) : (b64urlEncode value).isAscii = true := by
  refine List.all_eq_true.mpr fun c hc => ?_
  obtain ⟨d, hd, rfl⟩ := List.mem_map.mp hc
  exact decide_eq_true (Base64.encode_plain d hd).1

theorem dot_notMem_b64urlEncode (value : List UInt8) : .scalar '.' ∉ b64urlEncode value := by
  intro hdot
  obtain ⟨d, hd, heq⟩ := List.mem_map.mp hdot
  exact (Base64.encode_plain d hd).2 (PyChar.scalar.inj heq)

theorem ofChars_injective : Function.Injective PyText.ofChars :=
  List.map_injective_iff.mpr fun _ _ heq => PyChar.scalar.inj heq

theorem b64urlEncode_injective : Function.Injective b64urlEncode := fun _ _ heq =>
  Base64.encode_injective (ofChars_injective heq)

theorem b64urlDecode_encode (value : List UInt8) :
    b64urlDecode (b64urlEncode value) = .ok value := by
  have hchars : (b64urlEncode value).chars? = some (Base64.encode value) :=
    PyText.chars?_ofChars (Base64.encode value)
  rw [b64urlDecode, if_pos (b64urlEncode_isAscii value), hchars]
  simp only [Base64.decode_encode]

theorem encodeText_ok {text : PyText} {bytes : List UInt8} :
    encodeText text = .ok bytes ↔ text.encode = some bytes := by
  cases h : text.encode <;> simp [encodeText, h]

theorem compareDigest_ok {a b : PyText} {same : Bool} (heq : compareDigest a b = .ok same) :
    same = decide (a = b) := by
  rw [compareDigest] at heq
  split at heq
  · exact (Except.ok.inj heq).symm
  · cases heq

section References
variable {organizationSlug effectKey secret effectRef built : PyText}

/-- A reference is the key's spelling and the signature. -/
theorem buildEffectRef_ok
    (hbuilt : buildEffectRef h organizationSlug effectKey secret = .ok built) :
    ∃ bytes key message, effectKey.encode = some bytes ∧ secret.encode = some key ∧
      PyText.encode (organizationSlug ++ .scalar ':' :: effectKey) = some message ∧
      built = b64urlEncode bytes ++ .scalar '.' :: b64urlEncode (h.digest key message) := by
  obtain ⟨bytes, hbytes, hbuilt⟩ := Outcome.ok_of_bind hbuilt
  obtain ⟨key, hkey, hbuilt⟩ := Outcome.ok_of_bind hbuilt
  obtain ⟨message, hmessage, hbuilt⟩ := Outcome.ok_of_bind hbuilt
  cases hbuilt
  exact ⟨bytes, key, message, encodeText_ok.mp hbytes, encodeText_ok.mp hkey,
    encodeText_ok.mp hmessage, rfl⟩

/-- The signed message is encoded when the slug and the key are. -/
theorem encode_message_ne_none (hkey : effectKey.encode ≠ none) :
    PyText.encode (organizationSlug ++ .scalar ':' :: effectKey) ≠ none ↔
      organizationSlug.encode ≠ none := by
  have hcolon : PyText.encode ([.scalar ':'] ++ effectKey) ≠ none :=
    PyText.encode_append_ne_none.mpr ⟨by decide, hkey⟩
  rw [PyText.encode_append_ne_none]
  exact and_iff_left hcolon

/-- A reference is built from texts that can be encoded. -/
theorem buildEffectRef_exists (hslug : organizationSlug.encode ≠ none)
    (hkey : effectKey.encode ≠ none) (hsecret : secret.encode ≠ none) :
    ∃ built, buildEffectRef h organizationSlug effectKey secret = .ok built := by
  obtain ⟨message, hmessage⟩ :=
    Option.ne_none_iff_exists'.mp ((encode_message_ne_none hkey).mpr hslug)
  obtain ⟨bytes, hbytes⟩ := Option.ne_none_iff_exists'.mp hkey
  obtain ⟨key, hkey⟩ := Option.ne_none_iff_exists'.mp hsecret
  rw [buildEffectRef, encodeText_ok.mpr hbytes, encodeText_ok.mpr hkey, encodeText_ok.mpr hmessage]
  exact ⟨_, rfl⟩

/-- The reference says what the built one says: the same signature behind a
spelling of the same key. -/
def Respells (effectRef built : PyText) : Prop :=
  ∃ spelling spelling' signature bytes,
    effectRef.splitOnce (.scalar '.') = some (spelling, signature) ∧
    built.splitOnce (.scalar '.') = some (spelling', signature) ∧
    b64urlDecode spelling = .ok bytes ∧ b64urlDecode spelling' = .ok bytes

theorem splitOnce_built (bytes signature : List UInt8) :
    PyText.splitOnce (.scalar '.') (b64urlEncode bytes ++ .scalar '.' :: b64urlEncode signature) =
      some (b64urlEncode bytes, b64urlEncode signature) :=
  PyText.splitOnce_append (dot_notMem_b64urlEncode bytes) _

/-- The signature is the second part of what is built. -/
theorem expectedRefSignature_ok {signature : PyText} :
    expectedRefSignature h organizationSlug effectKey secret = .ok signature ↔
      ∃ bytes key message, effectKey.encode = some bytes ∧ secret.encode = some key ∧
        PyText.encode (organizationSlug ++ .scalar ':' :: effectKey) = some message ∧
        buildEffectRef h organizationSlug effectKey secret =
          .ok (b64urlEncode bytes ++ .scalar '.' :: signature) ∧
        signature = b64urlEncode (h.digest key message) := by
  constructor
  · intro hexpected
    obtain ⟨built, hbuilt, hexpected⟩ := Outcome.ok_of_bind hexpected
    obtain ⟨bytes, key, message, hbytes, hkey, hmessage, rfl⟩ := buildEffectRef_ok h hbuilt
    rw [splitOnce_built] at hexpected
    cases hexpected
    exact ⟨bytes, key, message, hbytes, hkey, hmessage, hbuilt, rfl⟩
  · intro ⟨bytes, key, message, _, _, _, hbuilt, hsignature⟩
    rw [expectedRefSignature, hbuilt, Outcome.ok_bind, hsignature]
    simp only [splitOnce_built]

/-- A built reference says what it says. -/
theorem respells_self (hbuilt : buildEffectRef h organizationSlug effectKey secret = .ok built) :
    Respells built built := by
  obtain ⟨bytes, key, message, -, -, -, rfl⟩ := buildEffectRef_ok h hbuilt
  exact ⟨_, _, _, bytes, splitOnce_built _ _, splitOnce_built _ _, b64urlDecode_encode bytes,
    b64urlDecode_encode bytes⟩

/-- The decoder accepts what says the same as the reference that is built for the
key it returns. -/
theorem decodeEffectRef_ok_iff :
    decodeEffectRef h organizationSlug effectRef secret = .ok effectKey ↔
      ∃ built, buildEffectRef h organizationSlug effectKey secret = .ok built ∧
        Respells effectRef built := by
  constructor
  · intro hdecoded
    rw [decodeEffectRef] at hdecoded
    split at hdecoded
    · cases hdecoded
    rename_i spelling supplied hsplit
    obtain ⟨bytes, hbytes, hdecoded⟩ := Outcome.ok_of_bind hdecoded
    split at hdecoded
    · cases hdecoded
    rename_i decodedKey hkey
    obtain ⟨expected, hexpected, hdecoded⟩ := Outcome.ok_of_bind hdecoded
    obtain ⟨keyBytes, key, message, hencode, -, -, hbuilt, hsignature⟩ :=
      (expectedRefSignature_ok h).mp hexpected
    obtain ⟨same, hsame, hdecoded⟩ := Outcome.ok_of_bind hdecoded
    have hsame := compareDigest_ok hsame
    split at hdecoded
    · rename_i htrue
      cases hdecoded
      obtain rfl : supplied = expected := of_decide_eq_true (hsame ▸ htrue)
      have hspelled : keyBytes = bytes :=
        Option.some.inj (hencode.symm.trans (PyText.encode_of_decode hkey))
      refine ⟨_, hbuilt, spelling, b64urlEncode keyBytes, supplied, keyBytes, hsplit, ?_, ?_,
        b64urlDecode_encode keyBytes⟩
      · rw [hsignature, splitOnce_built]
      · rw [hbytes, hspelled]
    · cases hdecoded
  · intro ⟨built, hbuilt, spelling, spelling', signature, bytes, hsplit, hsplit', hbytes, hbytes'⟩
    obtain ⟨keyBytes, key, message, hencode, hkey, hmessage, rfl⟩ := buildEffectRef_ok h hbuilt
    rw [splitOnce_built] at hsplit'
    cases hsplit'
    obtain rfl : keyBytes = bytes :=
      Except.ok.inj ((b64urlDecode_encode keyBytes).symm.trans hbytes')
    have hexpected := (expectedRefSignature_ok h).mpr
      ⟨keyBytes, key, message, hencode, hkey, hmessage, hbuilt, rfl⟩
    have hascii : compareDigest (b64urlEncode (h.digest key message))
        (b64urlEncode (h.digest key message)) = .ok true := by
      rw [compareDigest, if_pos ⟨b64urlEncode_isAscii _, b64urlEncode_isAscii _⟩]
      simp
    rw [decodeEffectRef, hsplit]
    simp only [hbytes, Outcome.ok_bind, PyText.decode_encode hencode, hexpected, hascii, if_true]

end References

theorem OrganizationSlug.colon_notMem (slug : OrganizationSlug) : .scalar ':' ∉ slug.text := by
  intro hcolon
  obtain ⟨c, hc, heq⟩ := List.mem_map.mp hcolon
  obtain rfl := PyChar.scalar.inj heq
  rcases List.mem_cons.mp hc with hfirst | hrest
  · have hok := slug.first_ok
    rw [← hfirst] at hok
    exact absurd hok (by decide)
  · exact absurd (List.all_eq_true.mp slug.rest_ok ':' hrest) (by decide)

theorem OrganizationSlug.text_injective : Function.Injective OrganizationSlug.text := by
  intro slug slug' heq
  obtain ⟨hfirst, hrest⟩ := List.cons.inj (ofChars_injective heq)
  cases slug
  cases slug'
  cases hfirst
  cases hrest
  rfl

theorem OrganizationSlug.encode_text (slug : OrganizationSlug) : slug.text.encode ≠ none := by
  simp [PyText.encode, OrganizationSlug.text, PyText.chars?_ofChars]

/-- The signature tells the organization and the key. -/
theorem signed_inj {slug slug' : OrganizationSlug} {effectKey effectKey' : PyText}
    {message : List UInt8}
    (hmessage : PyText.encode (slug.text ++ .scalar ':' :: effectKey) = some message)
    (hmessage' : PyText.encode (slug'.text ++ .scalar ':' :: effectKey') = some message) :
    slug = slug' ∧ effectKey = effectKey' := by
  have htext := PyText.encode_injective hmessage hmessage'
  have hsplit := PyText.splitOnce_append slug.colon_notMem effectKey
  rw [htext, PyText.splitOnce_append slug'.colon_notMem] at hsplit
  obtain ⟨hslug, hkey⟩ := Prod.mk.inj (Option.some.inj hsplit)
  exact ⟨(OrganizationSlug.text_injective hslug).symm, hkey.symm⟩

theorem respells_inj {slug slug' : OrganizationSlug}
    {effectKey effectKey' secret effectRef built built' : PyText}
    (hbuilt : buildEffectRef h slug.text effectKey secret = .ok built)
    (hbuilt' : buildEffectRef h slug'.text effectKey' secret = .ok built')
    (hspells : Respells effectRef built) (hspells' : Respells effectRef built') :
    slug = slug' ∧ effectKey = effectKey' := by
  obtain ⟨bytes, key, message, -, hkey, hmessage, rfl⟩ := buildEffectRef_ok h hbuilt
  obtain ⟨bytes', key', message', -, hkey', hmessage', rfl⟩ := buildEffectRef_ok h hbuilt'
  obtain ⟨_, _, signature, _, hsplit, hpart, -⟩ := hspells
  obtain ⟨_, _, signature', _, hsplit', hpart', -⟩ := hspells'
  obtain rfl : signature = signature' := by
    rw [hsplit] at hsplit'
    exact (Prod.mk.inj (Option.some.inj hsplit')).2
  rw [splitOnce_built] at hpart hpart'
  have hsigned := (Prod.mk.inj (Option.some.inj hpart)).2
  rw [← (Prod.mk.inj (Option.some.inj hpart')).2] at hsigned
  obtain rfl : key = key' := Option.some.inj (hkey.symm.trans hkey')
  obtain rfl : message = message' := h.injective key (b64urlEncode_injective hsigned)
  exact signed_inj hmessage hmessage'

/-- Effect references come back as their keys; what decodes to a key carries the
signature of the organization and the key, and of no other pair. -/
theorem effect_refs_correlate (slug : OrganizationSlug) (effectKey secret : PyText) :
    (effectKey.encode ≠ none → secret.encode ≠ none →
      ∃ built, buildEffectRef h slug.text effectKey secret = .ok built) ∧
    (∀ built, buildEffectRef h slug.text effectKey secret = .ok built →
      decodeEffectRef h slug.text built secret = .ok effectKey) ∧
    (∀ effectRef, decodeEffectRef h slug.text effectRef secret = .ok effectKey →
      (∃ built, buildEffectRef h slug.text effectKey secret = .ok built ∧
        Respells effectRef built) ∧
      ∀ slug' effectKey' built',
        buildEffectRef h (OrganizationSlug.text slug') effectKey' secret = .ok built' →
        Respells effectRef built' → slug' = slug ∧ effectKey' = effectKey) ∧
    (∀ slug' effectKey' built',
      buildEffectRef h (OrganizationSlug.text slug') effectKey' secret = .ok built' →
      decodeEffectRef h slug.text built' secret = .ok effectKey →
      slug' = slug ∧ effectKey' = effectKey) := by
  refine ⟨buildEffectRef_exists h slug.encode_text, ?_, ?_, ?_⟩
  · intro built hbuilt
    exact (decodeEffectRef_ok_iff h).mpr ⟨built, hbuilt, respells_self h hbuilt⟩
  · intro effectRef hdecoded
    obtain ⟨built, hbuilt, hspells⟩ := (decodeEffectRef_ok_iff h).mp hdecoded
    refine ⟨⟨built, hbuilt, hspells⟩, fun slug' effectKey' built' hbuilt' hspells' => ?_⟩
    exact respells_inj h hbuilt' hbuilt hspells' hspells
  · intro slug' effectKey' built' hbuilt' hdecoded
    obtain ⟨built, hbuilt, hspells⟩ := (decodeEffectRef_ok_iff h).mp hdecoded
    exact respells_inj h hbuilt' hbuilt (respells_self h hbuilt') hspells

/-- The decoder of the key's spelling skips characters that are no digits. -/
theorem respelled_reference_decodes :
    ¬ ∀ (h : HmacSha256) (slug : OrganizationSlug) (effectKey secret effectRef : PyText),
      decodeEffectRef h slug.text effectRef secret = .ok effectKey →
      buildEffectRef h slug.text effectKey secret = .ok effectRef := by
  intro hall
  let h : HmacSha256 := ⟨fun _ message => message, fun _ => Function.injective_id⟩
  let slug : OrganizationSlug :=
    ⟨'a', ['c', 'm', 'e'], by decide, by decide, by decide⟩
  have hbuilt : buildEffectRef h slug.text (.ofString "video:1") (.ofString "secret") =
      .ok (.ofString "dmlkZW86MQ.YWNtZTp2aWRlbzox") := by decide +kernel
  have hspells : Respells (.ofString "!!!!dmlkZW86MQ.YWNtZTp2aWRlbzox")
      (.ofString "dmlkZW86MQ.YWNtZTp2aWRlbzox") :=
    ⟨.ofString "!!!!dmlkZW86MQ", .ofString "dmlkZW86MQ", .ofString "YWNtZTp2aWRlbzox",
      "video:1".toUTF8.data.toList, by decide +kernel, by decide +kernel, by decide +kernel,
      by decide +kernel⟩
  have hsame := hall h slug _ _ _ ((decodeEffectRef_ok_iff h).mpr ⟨_, hbuilt, hspells⟩)
  rw [hbuilt] at hsame
  exact absurd hsame (by decide +kernel)

end Orchestrator
