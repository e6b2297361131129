import Orchestrator.Db.Effects
import Orchestrator.Lib.JsonText
import Orchestrator.Web.EffectRef

/-!
What `parse_and_verify_replicate_event` makes of a request of anyone.

The three headers are read and the timestamp is compared with the clock before
the signature is checked, so most of the function runs on input that nobody has
signed. An exception of a decoder or of a comparison that no clause catches
leaves the function.
-/

namespace Orchestrator

/-- What the interpreter knows of code points and of values, and how deep it
recurses in `json.loads` and in `str`. -/
structure Interpreter where
  casefold : PyText → PyText
  /-- The value of a decimal digit beyond ASCII. -/
  decimal? : Char → Option Nat
  reprText : PyText → PyText
  floatText : List Char → PyText
  floatIsZero : List Char → Bool
  decodeDepth : Nat
  strDepth : Nat

/-- The exception that the module raises on purpose. -/
def refuse (message : String) : WebhookException := .replicateWebhookError message

/-- White space of `int`: the separators U+001C to U+001F are none. -/
def isIntSpace (c : Char) : Bool := PyStr.isSpace c && !(0x1c ≤ c.toNat && c.toNat ≤ 0x1f)

namespace Interpreter
variable (i : Interpreter)

def digit? (c : Char) : Option Nat :=
  if c.isDigit then some (c.toNat - 48) else if c.toNat < 128 then none else i.decimal? c

/-- Digits with single underscores between them. -/
def readDigits : List Char → Option (List Nat)
  | [] => none
  | [c] => (i.digit? c).map ([·])
  | c :: '_' :: t => do return (← i.digit? c) :: (← readDigits t)
  | c :: d :: t => do return (← i.digit? c) :: (← readDigits (d :: t))

/-- `int(text)`; `none` is `ValueError`. -/
def int? (text : PyText) : Option Int := do
  let cs ← text.chars?
  let trimmed := ((cs.dropWhile isIntSpace).reverse.dropWhile isIntSpace).reverse
  let ds ← i.readDigits (if trimmed.head? = some '+' ∨ trimmed.head? = some '-' then
    trimmed.tail else trimmed)
  if JsonText.maxStrDigits < ds.length then none
  else
    let n : Int := ds.foldl (fun n d => n * 10 + d) 0
    return if trimmed.head? = some '-' then -n else n

end Interpreter

namespace PyJson

mutual
/-- How many containers are nested in the value, and the value itself. -/
def nesting : PyJson → Nat
  | .arr items => nestingItems items + 1
  | .obj fields => nestingFields fields + 1
  | _ => 1

def nestingItems : List PyJson → Nat
  | [] => 0
  | item :: items => max (nesting item) (nestingItems items)

def nestingFields : List (PyText × PyJson) → Nat
  | [] => 0
  | (_, value) :: fields => max (nesting value) (nestingFields fields)
end

mutual
/-- `repr(value)`. -/
def repr (i : Interpreter) : PyJson → PyText
  | .null => .ofString "None"
  | .bool b => .ofString (if b then "True" else "False")
  | .int n => .ofString (toString n)
  | .float literal => i.floatText literal
  | .str s => i.reprText s
  | .arr items =>
      .scalar '[' ::
        (((reprItems i items).intersperse (PyText.ofString ", ")).flatten ++ [.scalar ']'])
  | .obj fields =>
      .scalar '\x7b' ::
        (((reprFields i fields).intersperse (PyText.ofString ", ")).flatten ++ [.scalar '\x7d'])

def reprItems (i : Interpreter) : List PyJson → List PyText
  | [] => []
  | item :: items => repr i item :: reprItems i items

def reprFields (i : Interpreter) : List (PyText × PyJson) → List PyText
  | [] => []
  | (name, value) :: fields =>
      (i.reprText name ++ PyText.ofString ": " ++ repr i value) :: reprFields i fields
end

/-- `bool(value)`. -/
def truthy (i : Interpreter) : PyJson → Bool
  | .null => false
  | .bool b => b
  | .int n => n ≠ 0
  | .float literal => !i.floatIsZero literal
  | .str s => s ≠ []
  | .arr items => !items.isEmpty
  | .obj fields => !fields.isEmpty

end PyJson

/-- `str.strip()`. -/
def stripText (text : PyText) : PyText :=
  let isSpace : PyChar → Bool
    | .scalar c => PyStr.isSpace c
    | .surrogate _ => false
  ((text.dropWhile isSpace).reverse.dropWhile isSpace).reverse

/-- `str.split()`. -/
def splitText (text : PyText) : List PyText :=
  (text.splitOnP fun
    | .scalar c => PyStr.isSpace c
    | .surrogate _ => false).filter (· ≠ [])

structure WebhookRequest where
  rawBody : List UInt8
  headers : List (PyText × PyText)

/-- The headers that the function reads, and the timestamp in them. -/
structure WebhookHeaders where
  webhookId : PyText
  timestampText : PyText
  signatures : PyText
  timestamp : Int
  deriving DecidableEq

/-- An integer that no float is near enough to: what rounds to `2 ^ 1024`. -/
def tooLargeForFloat (n : Int) : Bool := 2 ^ 1024 - 2 ^ 970 ≤ n.natAbs

/-- The verified event; the repository's `ReplicateWebhookEvent` of any text. -/
structure VerifiedEvent where
  predictionId : PyText
  status : PredictionStatus

section Parsing
variable (i : Interpreter) (h : HmacSha256)

def header (headers : List (PyText × PyText)) (name : String) : Except WebhookException PyText :=
  match headers.find? (fun entry => i.casefold entry.1 = i.casefold (.ofString name)) with
  | some entry => .ok entry.2
  | none => .error (refuse ("missing " ++ name ++ " header"))

def readHeaders (headers : List (PyText × PyText)) : Except WebhookException WebhookHeaders := do
  let webhookId ← header i headers "webhook-id"
  let timestampText ← header i headers "webhook-timestamp"
  let signatures ← header i headers "webhook-signature"
  match i.int? timestampText with
  | some timestamp => .ok { webhookId, timestampText, signatures, timestamp }
  | none => .error (refuse "invalid webhook timestamp")

/-- `abs(current - timestamp) > tolerance_seconds`; `outside` compares the
timestamps that are floats. -/
def checkClock (outside : Int → Bool) (timestamp : Int) : Except WebhookException Unit :=
  if tooLargeForFloat timestamp then .error .overflowError
  else if outside timestamp then .error (refuse "webhook timestamp is outside tolerance")
  else .ok ()

/-- `signing_secret.removeprefix("whsec_")` -/
def encodedKey (signingSecret : PyText) : PyText :=
  let marker := PyText.ofString "whsec_"
  if marker <+: signingSecret then signingSecret.drop marker.length else signingSecret

def signingKey (signingSecret : PyText) : Except WebhookException (List UInt8) :=
  let encoded := encodedKey signingSecret
  if encoded = [] ∨ encoded = signingSecret then
    .error (refuse "invalid webhook signing secret")
  else
    match (if PyText.isAscii encoded then PyText.chars? encoded else none).bind
        Base64.decodeStrict with
    | some key => .ok key
    | none => .error (refuse "invalid webhook signing secret")

/-- The `v1` signatures of the header. -/
def candidates (signatures : PyText) : List PyText :=
  ((splitText signatures).filter fun token => PyText.ofString "v1," <+: token).map (·.drop 3)

/-- `any(hmac.compare_digest(value, expected) for value in candidates)`. -/
def anyDigest (expected : PyText) : List PyText → Except WebhookException Bool
  | [] => .ok false
  | value :: rest => do
      if ← compareDigest value expected then return true else anyDigest expected rest

/-- The bytes that are signed. -/
def signedBytes (headers : WebhookHeaders) (rawBody : List UInt8) :
    Except WebhookException (List UInt8) := do
  let front ← encodeText
    (headers.webhookId ++ .scalar '.' :: (headers.timestampText ++ [.scalar '.']))
  return front ++ rawBody

/-- The signature that a key gives to the signed bytes. -/
def expectedSignature (key signed : List UInt8) : PyText :=
  .ofChars (Base64.encodeStandard (h.digest key signed))

def verifySignature (headers : WebhookHeaders) (rawBody : List UInt8) (signingSecret : PyText) :
    Except WebhookException Unit := do
  let signed ← signedBytes headers rawBody
  let key ← signingKey signingSecret
  if candidates headers.signatures ≠ [] ∧
      (← anyDigest (expectedSignature h key signed) (candidates headers.signatures)) = true then
    .ok ()
  else .error (refuse "invalid webhook signature")

/-- `str(value or "")`. -/
def valueText : PyJson → Except WebhookException PyText
  | .str s => .ok s
  | value =>
      if PyJson.truthy i value = false then .ok []
      else if i.strDepth < PyJson.nesting value then .error .recursionError
      else .ok (PyJson.repr i value)

/-- `str(payload.get(name) or "").strip()`. -/
def fieldText (fields : List (PyText × PyJson)) (name : String) : Except WebhookException PyText :=
  match fields.find? (fun f => f.1 = .ofString name) with
  | none => .ok []
  | some (_, value) => (valueText i value).map stripText

/-- `status.lower()`, with one spelling for `canceled`. -/
def statusOfText? (text : PyText) : Option PredictionStatus := do
  let status := PyStr.lower (String.ofList (← text.chars?))
  PredictionStatus.ofText? (if status = "cancelled" then "canceled" else status)

def parsePayload (rawBody : List UInt8) : Except WebhookException VerifiedEvent :=
  match JsonText.loads i.decodeDepth rawBody with
  | .error .unicodeDecodeError | .error .jsonDecodeError => .error (refuse "invalid webhook JSON")
  | .error .valueError => .error .valueError
  | .error .recursionError => .error .recursionError
  | .ok (.obj fields) => do
      let predictionId ← fieldText i fields "id"
      let status ← fieldText i fields "status"
      if predictionId = [] then .error (refuse "webhook prediction id is missing")
      else
        match statusOfText? status with
        | some status => .ok { predictionId, status }
        | none => .error (refuse "webhook prediction status is invalid")
  | .ok _ => .error (refuse "invalid webhook JSON object")

def parseAndVerifyReplicateEvent (outside : Int → Bool) (request : WebhookRequest)
    (signingSecret : PyText) : Except WebhookException VerifiedEvent := do
  let headers ← readHeaders i request.headers
  checkClock outside headers.timestamp
  verifySignature h headers request.rawBody signingSecret
  parsePayload i request.rawBody

end Parsing

/-- The computation returns or raises the module's own error. -/
def OwnErrors {α : Type} (x : Except WebhookException α) : Prop :=
  ∀ exc, x = .error exc → ∃ message, exc = .replicateWebhookError message

section OwnErrors
variable {α β : Type}

theorem ownErrors_ok (a : α) : OwnErrors (.ok a : Except WebhookException α) := by
  intro exc herror
  cases herror

theorem ownErrors_refuse (message : String) :
    OwnErrors (.error (refuse message) : Except WebhookException α) := by
  intro exc herror
  cases herror
  exact ⟨message, rfl⟩

theorem ownErrors_error_iff {exc : WebhookException} :
    OwnErrors (.error exc : Except WebhookException α) ↔
      ∃ message, exc = .replicateWebhookError message := by
  constructor
  · intro hown
    exact hown exc rfl
  · intro hmessage exc' herror
    cases herror
    exact hmessage

/-- A step and, when it returns, what follows it. -/
theorem ownErrors_bind_iff {x : Except WebhookException α} {f : α → Except WebhookException β} :
    OwnErrors (x >>= f) ↔ OwnErrors x ∧ ∀ a, x = .ok a → OwnErrors (f a) := by
  cases x with
  | error exc =>
      constructor
      · intro hown
        refine ⟨ownErrors_error_iff.mpr (hown exc rfl), fun a ha => ?_⟩
        cases ha
      · intro hboth
        exact ownErrors_error_iff.mpr (hboth.1 exc rfl)
  | ok a =>
      constructor
      · intro hown
        refine ⟨ownErrors_ok a, fun a' ha => ?_⟩
        cases ha
        exact hown
      · intro hboth
        exact hboth.2 a rfl

/-- A step that raises no foreign error. -/
theorem ownErrors_bind_iff_of_own {x : Except WebhookException α}
    {f : α → Except WebhookException β} (hown : OwnErrors x) :
    OwnErrors (x >>= f) ↔ ∀ a, x = .ok a → OwnErrors (f a) := by
  rw [ownErrors_bind_iff]
  exact and_iff_right hown

end OwnErrors

theorem ownErrors_encodeText {text : PyText} :
    OwnErrors (encodeText text) ↔ text.encode ≠ none := by
  rw [encodeText]
  cases text.encode with
  | none => simp [ownErrors_error_iff]
  | some bytes => simp [ownErrors_ok]

theorem ownErrors_compareDigest {a b : PyText} (hb : b.isAscii = true) :
    OwnErrors (compareDigest a b) ↔ a.isAscii = true := by
  rw [compareDigest]
  by_cases ha : a.isAscii = true
  · simp [ha, hb, ownErrors_ok]
  · simp [ha, ownErrors_error_iff]

theorem ownErrors_b64urlDecode (value : PyText) : OwnErrors (b64urlDecode value) := by
  rw [b64urlDecode]
  split
  · exact ownErrors_refuse _
  · split
    · exact ownErrors_ok _
    · exact ownErrors_refuse _

/-- A reference whose first part is the base64 of a text, in front of a signature
beyond ASCII, or under a slug or a secret with surrogates. -/
def ForeignReference (organizationSlug effectRef secret : PyText) : Prop :=
  ∃ encoded signature bytes effectKey,
    effectRef.splitOnce (.scalar '.') = some (encoded, signature) ∧
    b64urlDecode encoded = .ok bytes ∧ PyText.decode bytes = some effectKey ∧
    ¬ (organizationSlug.encode ≠ none ∧ secret.encode ≠ none ∧ signature.isAscii = true)

section Reference
variable (h : HmacSha256) {organizationSlug effectKey effectRef secret : PyText}

theorem ownErrors_buildEffectRef (hkey : effectKey.encode ≠ none) :
    OwnErrors (buildEffectRef h organizationSlug effectKey secret) ↔
      organizationSlug.encode ≠ none ∧ secret.encode ≠ none := by
  have hmessage := @encode_message_ne_none organizationSlug effectKey hkey
  rw [buildEffectRef, ownErrors_bind_iff_of_own (ownErrors_encodeText.mpr hkey)]
  obtain ⟨bytes, hbytes⟩ := Option.ne_none_iff_exists'.mp hkey
  constructor
  · intro hown
    have hrest := hown bytes (encodeText_ok.mpr hbytes)
    rw [ownErrors_bind_iff, ownErrors_encodeText] at hrest
    obtain ⟨hsecret, hrest⟩ := hrest
    obtain ⟨key, hkey⟩ := Option.ne_none_iff_exists'.mp hsecret
    have hlast := hrest key (encodeText_ok.mpr hkey)
    rw [ownErrors_bind_iff, ownErrors_encodeText] at hlast
    exact ⟨hmessage.mp hlast.1, hsecret⟩
  · rintro ⟨hslug, hsecret⟩ bytes -
    rw [ownErrors_bind_iff_of_own (ownErrors_encodeText.mpr hsecret)]
    intro key _
    rw [ownErrors_bind_iff_of_own (ownErrors_encodeText.mpr (hmessage.mpr hslug))]
    intro message _
    exact ownErrors_ok _

theorem ownErrors_expectedRefSignature (hkey : effectKey.encode ≠ none) :
    OwnErrors (expectedRefSignature h organizationSlug effectKey secret) ↔
      organizationSlug.encode ≠ none ∧ secret.encode ≠ none := by
  rw [expectedRefSignature, ownErrors_bind_iff, ownErrors_buildEffectRef h hkey]
  refine and_iff_left fun built hbuilt => ?_
  obtain ⟨bytes, key, message, -, -, -, rfl⟩ := buildEffectRef_ok h hbuilt
  simp only [splitOnce_built]
  exact ownErrors_ok _

/-- The comparison of a reference's signature. -/
theorem ownErrors_compareRefSignature {signature : PyText} (hkey : effectKey.encode ≠ none) :
    OwnErrors (do
      let expected ← expectedRefSignature h organizationSlug effectKey secret
      if ← compareDigest signature expected then .ok effectKey else .error invalidCorrelation) ↔
    organizationSlug.encode ≠ none ∧ secret.encode ≠ none ∧ signature.isAscii = true := by
  rw [ownErrors_bind_iff, ownErrors_expectedRefSignature h hkey, and_assoc]
  refine and_congr_right fun hslug => and_congr_right fun hsecret => ?_
  have hnext : ∀ expected, expectedRefSignature h organizationSlug effectKey secret = .ok expected →
      (OwnErrors (do
        if ← compareDigest signature expected then .ok effectKey else .error invalidCorrelation) ↔
        signature.isAscii = true) := by
    intro expected hexpected
    obtain ⟨bytes, key, message, -, -, -, -, rfl⟩ := (expectedRefSignature_ok h).mp hexpected
    rw [ownErrors_bind_iff, ownErrors_compareDigest (b64urlEncode_isAscii _)]
    refine and_iff_left fun same _ => ?_
    cases same
    · exact ownErrors_refuse _
    · exact ownErrors_ok _
  constructor
  · intro hown
    obtain ⟨expected, hexpected⟩ : ∃ expected,
        expectedRefSignature h organizationSlug effectKey secret = .ok expected := by
      obtain ⟨built, hbuilt⟩ := buildEffectRef_exists h hslug hkey hsecret
      obtain ⟨bytes, key, message, hbytes, hkey, hmessage, rfl⟩ := buildEffectRef_ok h hbuilt
      exact ⟨_, (expectedRefSignature_ok h).mpr
        ⟨bytes, key, message, hbytes, hkey, hmessage, hbuilt, rfl⟩⟩
    exact (hnext expected hexpected).mp (hown expected hexpected)
  · intro hascii expected hexpected
    exact (hnext expected hexpected).mpr hascii

theorem ownErrors_decodeEffectRef :
    OwnErrors (decodeEffectRef h organizationSlug effectRef secret) ↔
      ¬ ForeignReference organizationSlug effectRef secret := by
  rw [decodeEffectRef]
  cases hsplit : effectRef.splitOnce (.scalar '.') with
  | none =>
      refine iff_of_true (ownErrors_refuse _) ?_
      rintro ⟨encoded, signature, bytes, effectKey, hfound, _⟩
      rw [hsplit] at hfound
      cases hfound
  | some parts =>
      obtain ⟨encoded, signature⟩ := parts
      rw [ownErrors_bind_iff_of_own (ownErrors_b64urlDecode encoded)]
      constructor
      · rintro hown ⟨_, _, bytes, effectKey, hfound, hbytes, hkey, hforeign⟩
        rw [hsplit] at hfound
        cases hfound
        have hrest := hown bytes hbytes
        have hencode : effectKey.encode ≠ none := by simp [PyText.encode_of_decode hkey]
        simp only [hkey] at hrest
        exact hforeign ((ownErrors_compareRefSignature h hencode).mp hrest)
      · intro hforeign bytes hbytes
        cases hkey : PyText.decode bytes with
        | none => exact ownErrors_refuse _
        | some effectKey =>
            have hencode : effectKey.encode ≠ none := by simp [PyText.encode_of_decode hkey]
            refine (ownErrors_compareRefSignature h hencode).mpr ?_
            by_contra hparts
            exact hforeign ⟨encoded, signature, bytes, effectKey, hsplit, hbytes, hkey, hparts⟩

end Reference

section Request
variable (i : Interpreter) (h : HmacSha256)

theorem ownErrors_header (headers : List (PyText × PyText)) (name : String) :
    OwnErrors (header i headers name) := by
  rw [header]
  split
  · exact ownErrors_ok _
  · exact ownErrors_refuse _

theorem ownErrors_readHeaders (headers : List (PyText × PyText)) :
    OwnErrors (readHeaders i headers) := by
  rw [readHeaders, ownErrors_bind_iff_of_own (ownErrors_header i _ _)]
  intro webhookId _
  rw [ownErrors_bind_iff_of_own (ownErrors_header i _ _)]
  intro timestampText _
  rw [ownErrors_bind_iff_of_own (ownErrors_header i _ _)]
  intro signatures _
  cases i.int? timestampText with
  | none => exact ownErrors_refuse _
  | some timestamp => exact ownErrors_ok _

/-- A text that is an integer has no surrogates. -/
theorem encode_of_int? {text : PyText} {n : Int} (hint : i.int? text = some n) :
    text.encode ≠ none := by
  obtain ⟨cs, hcs, -⟩ := Option.bind_eq_some_iff.mp hint
  simp [PyText.encode, hcs]

theorem int?_of_readHeaders {entries : List (PyText × PyText)} {headers : WebhookHeaders}
    (hread : readHeaders i entries = .ok headers) :
    i.int? headers.timestampText = some headers.timestamp := by
  obtain ⟨webhookId, -, hread⟩ := Outcome.ok_of_bind hread
  obtain ⟨timestampText, -, hread⟩ := Outcome.ok_of_bind hread
  obtain ⟨signatures, -, hread⟩ := Outcome.ok_of_bind hread
  split at hread
  · rename_i timestamp hint
    cases hread
    exact hint
  · cases hread

theorem ownErrors_checkClock {outside : Int → Bool} {timestamp : Int} :
    OwnErrors (checkClock outside timestamp) ↔ tooLargeForFloat timestamp = false := by
  rw [checkClock]
  cases tooLargeForFloat timestamp with
  | true => simp [ownErrors_error_iff]
  | false =>
      refine iff_of_true ?_ rfl
      cases outside timestamp
      · exact ownErrors_ok _
      · exact ownErrors_refuse _

theorem ownErrors_signedBytes {headers : WebhookHeaders} {rawBody : List UInt8}
    (htimestamp : headers.timestampText.encode ≠ none) :
    OwnErrors (signedBytes headers rawBody) ↔ headers.webhookId.encode ≠ none := by
  have htail : PyText.encode ([.scalar '.'] ++ (headers.timestampText ++ [.scalar '.'])) ≠ none :=
    PyText.encode_append_ne_none.mpr
      ⟨by decide, PyText.encode_append_ne_none.mpr ⟨htimestamp, by decide⟩⟩
  rw [signedBytes, ownErrors_bind_iff, ownErrors_encodeText, PyText.encode_append_ne_none]
  constructor
  · intro hboth
    exact hboth.1.1
  · intro hid
    exact ⟨⟨hid, htail⟩, fun _ _ => ownErrors_ok _⟩

theorem ownErrors_signingKey (signingSecret : PyText) : OwnErrors (signingKey signingSecret) := by
  simp only [signingKey]
  split
  · exact ownErrors_refuse _
  · split
    · exact ownErrors_ok _
    · exact ownErrors_refuse _

/-- Up to the expected signature every candidate is ASCII. -/
def AsciiUntil (expected : PyText) (values : List PyText) : Prop :=
  ∀ pre value post, values = pre ++ value :: post → expected ∉ pre → value.isAscii = true

theorem asciiUntil_cons {expected value : PyText} {values : List PyText} :
    AsciiUntil expected (value :: values) ↔
      value.isAscii = true ∧ (value ≠ expected → AsciiUntil expected values) := by
  constructor
  · intro hascii
    refine ⟨hascii [] value values rfl List.not_mem_nil, fun hne pre next post heq hpre => ?_⟩
    refine hascii (value :: pre) next post (by rw [heq, List.cons_append]) ?_
    rw [List.mem_cons, not_or]
    exact ⟨hne.symm, hpre⟩
  · intro ⟨hvalue, hrest⟩ pre next post heq hpre
    cases pre with
    | nil =>
        obtain ⟨rfl, -⟩ := List.cons.inj heq
        exact hvalue
    | cons first pre =>
        rw [List.mem_cons, not_or] at hpre
        obtain ⟨rfl, hvalues⟩ := List.cons.inj heq
        exact hrest (Ne.symm hpre.1) pre next post hvalues hpre.2

/-- The comparisons stop at the first that holds. -/
theorem ownErrors_anyDigest {expected : PyText} (hexpected : expected.isAscii = true)
    (values : List PyText) :
    OwnErrors (anyDigest expected values) ↔ AsciiUntil expected values := by
  induction values with
  | nil =>
      refine iff_of_true (ownErrors_ok _) fun pre value post heq _ => ?_
      cases pre <;> cases heq
  | cons value values ih =>
      rw [anyDigest, ownErrors_bind_iff, ownErrors_compareDigest hexpected, asciiUntil_cons]
      refine and_congr_right fun hvalue => ?_
      have hcompare : compareDigest value expected = .ok (decide (value = expected)) := by
        rw [compareDigest, if_pos ⟨hvalue, hexpected⟩]
      by_cases heq : value = expected
      · refine iff_of_true (fun same hsame => ?_) (fun hne => absurd heq hne)
        rw [hcompare] at hsame
        cases hsame
        rw [decide_eq_true heq]
        exact ownErrors_ok _
      · rw [← ih]
        constructor
        · intro hown _
          have hrest := hown false (by rw [hcompare, decide_eq_false heq])
          exact hrest
        · intro hown same hsame
          rw [hcompare, decide_eq_false heq] at hsame
          cases hsame
          exact hown heq

/-- The signature of a request is compared with the candidates in its header. -/
theorem ownErrors_verifySignature {headers : WebhookHeaders} {rawBody : List UInt8}
    {signingSecret : PyText} (htimestamp : headers.timestampText.encode ≠ none) :
    OwnErrors (verifySignature h headers rawBody signingSecret) ↔
      headers.webhookId.encode ≠ none ∧
        ∀ signed key, signedBytes headers rawBody = .ok signed →
          signingKey signingSecret = .ok key →
          AsciiUntil (expectedSignature h key signed) (candidates headers.signatures) := by
  rw [verifySignature, ownErrors_bind_iff, ownErrors_signedBytes htimestamp]
  refine and_congr_right fun _ => ?_
  have hascii : ∀ key signed, (expectedSignature h key signed).isAscii = true := by
    intro key signed
    refine List.all_eq_true.mpr fun c hc => ?_
    obtain ⟨d, hd, rfl⟩ := List.mem_map.mp hc
    exact decide_eq_true (Base64.encodeStandard_plain d hd)
  have hcompare : ∀ signed key,
      OwnErrors (do
        if candidates headers.signatures ≠ [] ∧
            (← anyDigest (expectedSignature h key signed)
              (candidates headers.signatures)) = true then
          .ok ()
        else .error (refuse "invalid webhook signature")) ↔
      AsciiUntil (expectedSignature h key signed) (candidates headers.signatures) := by
    intro signed key
    rw [ownErrors_bind_iff, ownErrors_anyDigest (hascii key signed)]
    refine and_iff_left fun same _ => ?_
    split
    · exact ownErrors_ok _
    · exact ownErrors_refuse _
  constructor
  · intro hown signed key hsigned hkey
    have hrest := hown signed hsigned
    rw [ownErrors_bind_iff_of_own (ownErrors_signingKey signingSecret)] at hrest
    exact (hcompare signed key).mp (hrest key hkey)
  · intro huntil signed hsigned
    rw [ownErrors_bind_iff_of_own (ownErrors_signingKey signingSecret)]
    intro key hkey
    exact (hcompare signed key).mpr (huntil signed key hsigned hkey)

/-- The value, no string, is nested deeper than `str` recurses. -/
def TooDeepForStr : PyJson → Prop
  | .str _ => False
  | value => PyJson.truthy i value = true ∧ i.strDepth < PyJson.nesting value

theorem valueText_ok_or (value : PyJson) :
    (∃ text, valueText i value = .ok text) ∧ ¬ TooDeepForStr i value ∨
      valueText i value = .error .recursionError ∧ TooDeepForStr i value := by
  cases value with
  | str s =>
      exact Or.inl ⟨⟨s, rfl⟩, id⟩
  | _ =>
      simp only [valueText, TooDeepForStr]
      split
      · rename_i hfalse
        simp [hfalse]
      · rename_i htrue
        split
        · rename_i hdeep
          simp [hdeep, htrue]
        · rename_i hshallow
          simp [hshallow]

/-- What the documents holds under the name is too deep. -/
def TooDeepField (fields : List (PyText × PyJson)) (name : String) : Prop :=
  ∃ field, fields.find? (fun f => f.1 = .ofString name) = some field ∧ TooDeepForStr i field.2

/-- A field has a text unless it is too deep. -/
theorem fieldText_ok_or (fields : List (PyText × PyJson)) (name : String) :
    (∃ text, fieldText i fields name = .ok text) ∧ ¬ TooDeepField i fields name ∨
      fieldText i fields name = .error .recursionError ∧ TooDeepField i fields name := by
  cases hfind : fields.find? (fun f => f.1 = .ofString name) with
  | none =>
      refine Or.inl ⟨⟨[], by rw [fieldText, hfind]⟩, ?_⟩
      intro ⟨field, hfield, _⟩
      rw [hfind] at hfield
      cases hfield
  | some field =>
      have hdeep : TooDeepField i fields name ↔ TooDeepForStr i field.2 := by
        simp [TooDeepField, hfind]
      rw [hdeep]
      simp only [fieldText, hfind]
      rcases valueText_ok_or i field.2 with ⟨⟨text, htext⟩, hshallow⟩ | ⟨herror, hdeep⟩
      · exact Or.inl ⟨⟨stripText text, by rw [htext]; rfl⟩, hshallow⟩
      · exact Or.inr ⟨by rw [herror]; rfl, hdeep⟩

/-- The body is a document that the interpreter cannot read or print. -/
inductive ForeignBody (rawBody : List UInt8) : Prop where
  | tooManyDigits (hloads : JsonText.loads i.decodeDepth rawBody = .error .valueError)
  | tooDeep (hloads : JsonText.loads i.decodeDepth rawBody = .error .recursionError)
  | tooDeepField {fields : List (PyText × PyJson)} {name : String}
      (hloads : JsonText.loads i.decodeDepth rawBody = .ok (.obj fields))
      (hname : name = "id" ∨ name = "status") (hdeep : TooDeepField i fields name)

theorem ownErrors_parseFields (fields : List (PyText × PyJson)) :
    OwnErrors (do
      let predictionId ← fieldText i fields "id"
      let status ← fieldText i fields "status"
      if predictionId = [] then .error (refuse "webhook prediction id is missing")
      else
        match statusOfText? status with
        | some status => .ok { predictionId, status : VerifiedEvent }
        | none => .error (refuse "webhook prediction status is invalid")) ↔
    ¬ TooDeepField i fields "id" ∧ ¬ TooDeepField i fields "status" := by
  rcases fieldText_ok_or i fields "id" with ⟨⟨predictionId, hid⟩, hshallow⟩ | ⟨hid, hdeep⟩
  · rw [hid, Outcome.ok_bind]
    rcases fieldText_ok_or i fields "status" with ⟨⟨status, hstatus⟩, hflat⟩ | ⟨hstatus, hdeep⟩
    · rw [hstatus, Outcome.ok_bind]
      refine iff_of_true ?_ ⟨hshallow, hflat⟩
      split
      · exact ownErrors_refuse _
      · split
        · exact ownErrors_ok _
        · exact ownErrors_refuse _
    · rw [hstatus]
      refine iff_of_false (fun hown => ?_) fun hboth => hboth.2 hdeep
      obtain ⟨message, hmessage⟩ := hown _ rfl
      cases hmessage
  · rw [hid]
    refine iff_of_false (fun hown => ?_) fun hboth => hboth.1 hdeep
    obtain ⟨message, hmessage⟩ := hown _ rfl
    cases hmessage

theorem ownErrors_parsePayload (rawBody : List UInt8) :
    OwnErrors (parsePayload i rawBody) ↔ ¬ ForeignBody i rawBody := by
  have hforeign : ∀ {x}, JsonText.loads i.decodeDepth rawBody = x →
      (ForeignBody i rawBody ↔ x = .error .valueError ∨ x = .error .recursionError ∨
        ∃ fields, x = .ok (.obj fields) ∧
          (TooDeepField i fields "id" ∨ TooDeepField i fields "status")) := by
    intro x hloads
    subst hloads
    constructor
    · intro hforeign
      cases hforeign with
      | tooManyDigits hloads => exact Or.inl hloads
      | tooDeep hloads => exact Or.inr (Or.inl hloads)
      | tooDeepField hloads hname hdeep =>
          refine Or.inr (Or.inr ⟨_, hloads, ?_⟩)
          rcases hname with rfl | rfl
          · exact Or.inl hdeep
          · exact Or.inr hdeep
    · rintro (hloads | hloads | ⟨fields, hloads, hdeep | hdeep⟩)
      · exact .tooManyDigits hloads
      · exact .tooDeep hloads
      · exact .tooDeepField hloads (Or.inl rfl) hdeep
      · exact .tooDeepField hloads (Or.inr rfl) hdeep
  rw [parsePayload]
  cases hloads : JsonText.loads i.decodeDepth rawBody with
  | error exc =>
      rw [hforeign hloads]
      cases exc with
      | unicodeDecodeError | jsonDecodeError => simp [ownErrors_refuse]
      | valueError | recursionError => simp [ownErrors_error_iff]
  | ok document =>
      rw [hforeign hloads]
      cases document with
      | obj fields =>
          simp only [reduceCtorEq, false_or, Except.ok.injEq, PyJson.obj.injEq, exists_eq_left',
            not_or]
          exact ownErrors_parseFields i fields
      | _ => simp [ownErrors_refuse]

/-- A request that makes a decoder, a comparison or a conversion raise where
nothing catches it. -/
inductive ForeignRequest (outside : Int → Bool) (headers : WebhookHeaders) (rawBody : List UInt8)
    (signingSecret : PyText) : Prop where
  | timestamp (hlarge : tooLargeForFloat headers.timestamp = true)
  | webhookId (hclock : checkClock outside headers.timestamp = .ok ())
      (hid : headers.webhookId.encode = none)
  | signature {signed key : List UInt8} (hclock : checkClock outside headers.timestamp = .ok ())
      (hsigned : signedBytes headers rawBody = .ok signed)
      (hkey : signingKey signingSecret = .ok key)
      (hvalues : ¬ AsciiUntil (expectedSignature h key signed) (candidates headers.signatures))
  | body (hclock : checkClock outside headers.timestamp = .ok ())
      (hverified : verifySignature h headers rawBody signingSecret = .ok ())
      (hbody : ForeignBody i rawBody)

theorem ownErrors_parseAndVerify {outside : Int → Bool} {request : WebhookRequest}
    {signingSecret : PyText} :
    OwnErrors (parseAndVerifyReplicateEvent i h outside request signingSecret) ↔
      ∀ headers, readHeaders i request.headers = .ok headers →
        ¬ ForeignRequest i h outside headers request.rawBody signingSecret := by
  rw [parseAndVerifyReplicateEvent, ownErrors_bind_iff_of_own (ownErrors_readHeaders i _)]
  refine forall_congr' fun headers => imp_congr_right fun hread => ?_
  have htimestamp := encode_of_int? i (int?_of_readHeaders i hread)
  rw [ownErrors_bind_iff, ownErrors_checkClock]
  constructor
  · intro ⟨hsmall, hrest⟩ hforeign
    cases hforeign with
    | timestamp hlarge => simp [hsmall] at hlarge
    | webhookId hclock hid =>
        have hown := (ownErrors_bind_iff.mp (hrest () hclock)).1
        exact ((ownErrors_verifySignature h htimestamp).mp hown).1 hid
    | signature hclock hsigned hkey hvalues =>
        have hown := (ownErrors_bind_iff.mp (hrest () hclock)).1
        exact hvalues (((ownErrors_verifySignature h htimestamp).mp hown).2 _ _ hsigned hkey)
    | body hclock hverified hbody =>
        have hown := (ownErrors_bind_iff.mp (hrest () hclock)).2 () hverified
        exact (ownErrors_parsePayload i request.rawBody).mp hown hbody
  · intro hforeign
    refine ⟨?_, fun _ hclock => ownErrors_bind_iff.mpr ⟨?_, fun _ hverified => ?_⟩⟩
    · by_contra hlarge
      exact hforeign (.timestamp (by simpa using hlarge))
    · refine (ownErrors_verifySignature h htimestamp).mpr ⟨?_, fun signed key hsigned hkey => ?_⟩
      · exact fun hid => hforeign (.webhookId hclock hid)
      · by_contra hvalues
        exact hforeign (.signature hclock hsigned hkey hvalues)
    · exact (ownErrors_parsePayload i request.rawBody).mpr
        fun hbody => hforeign (.body hclock hverified hbody)

end Request

/-- The functions of the webhook raise nothing but their own error exactly for
requests and references that no decoder, comparison or conversion chokes on. -/
theorem webhook_errors_iff (i : Interpreter) (h : HmacSha256) (outside : Int → Bool)
    (request : WebhookRequest) (signingSecret organizationSlug effectRef secret : PyText) :
    (OwnErrors (parseAndVerifyReplicateEvent i h outside request signingSecret) ↔
      ∀ headers, readHeaders i request.headers = .ok headers →
        ¬ ForeignRequest i h outside headers request.rawBody signingSecret) ∧
    (OwnErrors (decodeEffectRef h organizationSlug effectRef secret) ↔
      ¬ ForeignReference organizationSlug effectRef secret) :=
  ⟨ownErrors_parseAndVerify i h, ownErrors_decodeEffectRef h⟩

/-- An interpreter for texts of ASCII, and a request of the year `10 ^ 309`. -/
def asciiInterpreter : Interpreter where
  casefold := id
  decimal? _ := none
  reprText := id
  floatText := PyText.ofChars
  floatIsZero literal := literal.all fun c => c = '0' || c = '.'
  decodeDepth := 900
  strDepth := 900

def farTimestamp : PyText := .scalar '1' :: List.replicate 309 (.scalar '0')

def farRequest : WebhookRequest where
  rawBody := []
  headers := [(.ofString "webhook-id", .ofString "msg_1"),
    (.ofString "webhook-timestamp", farTimestamp), (.ofString "webhook-signature", .ofString "v1,")]

/-- The difference of the clock and an integer beyond the floats overflows. -/
theorem far_timestamp_overflows :
    ¬ ∀ (i : Interpreter) (h : HmacSha256) (outside : Int → Bool) (request : WebhookRequest)
      (signingSecret organizationSlug effectRef secret : PyText),
      OwnErrors (parseAndVerifyReplicateEvent i h outside request signingSecret) ∧
        OwnErrors (decodeEffectRef h organizationSlug effectRef secret) := by
  intro hall
  let h : HmacSha256 := ⟨fun _ message => message, fun _ => Function.injective_id⟩
  have hown := (hall asciiInterpreter h (fun _ => false) farRequest [] [] [] []).1
  have hread : readHeaders asciiInterpreter farRequest.headers =
      .ok ⟨.ofString "msg_1", farTimestamp, .ofString "v1,", 10 ^ 309⟩ := by decide +kernel
  exact (ownErrors_parseAndVerify _ h).mp hown _ hread (.timestamp (by decide +kernel))

end Orchestrator
