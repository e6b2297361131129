import Mathlib.Data.List.Nodup
import Orchestrator.Lib.JsonStrings
import Orchestrator.Lib.PyLines
import Orchestrator.Lib.PyStr

/-!
Signed URLs in place of the storage pointers of a payload.

A pointer names a backend, a bucket and a key. A storage for several backends
signs every pointer; one for a single backend leaves the pointers of others as
they are, and without a storage the payload stays as it is. What a storage
answers may differ from call to call.
-/

namespace Orchestrator

def objectSchemes : List String := ["r2", "s3"]

/-- `object_pointer_from_uri`: the backend and the key. -/
def objectPointerFromUri (uri : String) : Option (String × String) :=
  let owner := objectSchemes.find? fun backend => (backend ++ "://").toList.isPrefixOf uri.toList
  owner.bind fun backend =>
    let rest := String.ofList (uri.toList.drop (backend ++ "://").length)
    let key := PyStr.partitionTail '/' rest
    if key = "" then none else some (backend, key)

example : objectPointerFromUri "r2://ugc/run-1/clip-0.mp4" = some ("r2", "run-1/clip-0.mp4") := by
  decide
example : objectPointerFromUri "r2://ugc/" = none := by decide

/-- A storage that signs for a named backend, or for its own. The first argument is the number of
the call, the last one the lifetime. -/
inductive SigningStorage where
  | forBackends (getSignedUrlFor : Nat → String → String → Nat → Except String String)
  | single (backend : String) (getSignedUrl : Nat → String → Nat → Except String String)

/-- `MultiBackendMediaStorage`. -/
def multiBackend (backends : List (String × (Nat → String → Nat → Except String String))) :
    SigningStorage :=
  .forBackends fun n backend key ttl =>
    match backends.find? (·.1 = backend) with
    | some entry => entry.2 n key ttl
    | none => .error ("storage backend desconhecido: " ++ PyStr.repr backend)

/-- The call that is made for a pointer, when one is. -/
def SigningStorage.request (storage : SigningStorage) (ttl n : Nat) (pointer : String × String) :
    Option (Except String String) :=
  match storage with
  | .forBackends sign => some (sign n pointer.1 pointer.2 ttl)
  | .single backend sign => if backend = pointer.1 then some (sign n pointer.2 ttl) else none

/-- The storage signs pointers of this backend. -/
def SigningStorage.signs (storage : SigningStorage) (backend : String) : Bool :=
  match storage with
  | .forBackends _ => true
  | .single own _ => own = backend

/-- The URLs that were signed, and every pointer that a call was made for. -/
structure SignState where
  cache : List ((String × String) × String) := []
  calls : List (String × String) := []

namespace SignState

/-- The cached URL of a pointer. -/
def url? (urls : List ((String × String) × String)) (pointer : String × String) : Option String :=
  (urls.find? (·.1 = pointer)).map (·.2)

end SignState

section Resolve
variable (storage : SigningStorage) (ttl : Nat)

/-- `_walk` at a string. -/
def signText (text : String) (s : SignState) : SignState × Except String String :=
  match objectPointerFromUri text with
  | none => (s, .ok text)
  | some pointer =>
      match SignState.url? s.cache pointer with
      | some url => (s, .ok url)
      | none =>
          match storage.request ttl s.calls.length pointer with
          | none => (s, .ok text)
          | some (.error exc) => ({ s with calls := s.calls ++ [pointer] }, .error exc)
          | some (.ok url) =>
              (⟨s.cache ++ [(pointer, url)], s.calls ++ [pointer]⟩, .ok url)

end Resolve

/-- `resolve_signed_uris`: the pointers that a call was made for, and the result. -/
def resolveSignedUris (storage : Option SigningStorage) (ttl : Nat) (payload : Json) :
    List (String × String) × Except String Json :=
  match storage with
  | none => ([], .ok payload)
  | some storage =>
      let walked := payload.walkStrings (signText storage ttl) {}
      (walked.1.calls, walked.2)

/-- The pointers of a payload that the storage signs. -/
def signedPointers (storage : Option SigningStorage) (payload : Json) : List (String × String) :=
  (payload.strings.filterMap objectPointerFromUri).filter fun pointer =>
    storage.any (·.signs pointer.1)

/-- A text with the URL of its pointer in its place, when the storage signs that. -/
def replacedText (storage : Option SigningStorage) (urls : List ((String × String) × String))
    (text : String) : String :=
  match objectPointerFromUri text with
  | none => text
  | some pointer =>
      if storage.any (·.signs pointer.1) then (SignState.url? urls pointer).getD text else text

namespace SignState

theorem url?_append {urls later : List ((String × String) × String)} {pointer : String × String}
    {url : String} (h : url? urls pointer = some url) :
    url? (urls ++ later) pointer = some url := by
  rw [url?, Option.map_eq_some_iff] at h
  obtain ⟨entry, hentry, hurl⟩ := h
  rw [url?, List.find?_append, hentry, Option.some_or, Option.map_some, hurl]

theorem url?_eq_none_iff {urls : List ((String × String) × String)} {pointer : String × String} :
    url? urls pointer = none ↔ pointer ∉ urls.map (·.1) := by
  rw [url?, Option.map_eq_none_iff, List.find?_eq_none, List.mem_map]
  simp only [decide_eq_true_eq, not_exists, not_and]

theorem mem_of_url? {urls : List ((String × String) × String)} {pointer : String × String}
    {url : String} (h : url? urls pointer = some url) : (pointer, url) ∈ urls := by
  rw [url?, Option.map_eq_some_iff] at h
  obtain ⟨entry, hentry, rfl⟩ := h
  have hkey : entry.1 = pointer := by simpa using List.find?_some hentry
  exact hkey ▸ List.mem_of_find?_eq_some hentry

/-- What is known of a pointer that was not cached, once it is. -/
theorem url?_concat {urls : List ((String × String) × String)} {pointer : String × String}
    (h : url? urls pointer = none) (url : String) :
    url? (urls ++ [(pointer, url)]) pointer = some url := by
  rw [url?, Option.map_eq_none_iff] at h
  rw [url?, List.find?_append, h, Option.none_or, List.find?_singleton]
  simp

end SignState

section Resolve
variable (storage : SigningStorage) (ttl : Nat)

theorem request_isSome_iff (n : Nat) (pointer : String × String) :
    (storage.request ttl n pointer).isSome = storage.signs pointer.1 := by
  cases storage with
  | forBackends sign => rfl
  | single backend sign =>
      rw [SigningStorage.request, SigningStorage.signs]
      split <;> simp_all

/-- The URL is one that the storage answered for the backend and the key of the pointer. -/
def SignedBy (entry : (String × String) × String) : Prop :=
  ∃ n, storage.request ttl n entry.1 = some (.ok entry.2)

/-- The states that a walk goes on from: a call was made for the cached pointers, once each. -/
structure Signing (s : SignState) : Prop where
  calls : s.calls = s.cache.map (·.1)
  once : s.calls.Nodup
  genuine : ∀ entry ∈ s.cache, SignedBy storage ttl entry

/-- What one string does to a state that it is met in. -/
theorem signText_cases (text : String) (s : SignState) :
    (signText storage ttl text s = (s, .ok text) ∧
      ∀ pointer ∈ objectPointerFromUri text, storage.signs pointer.1 = false) ∨
    (∃ pointer url, objectPointerFromUri text = some pointer ∧
      SignState.url? s.cache pointer = some url ∧ signText storage ttl text s = (s, .ok url)) ∨
    (∃ pointer reply, objectPointerFromUri text = some pointer ∧
      SignState.url? s.cache pointer = none ∧
      storage.request ttl s.calls.length pointer = some reply ∧
      signText storage ttl text s = (match reply with
        | .error exc => ({ s with calls := s.calls ++ [pointer] }, .error exc)
        | .ok url => (⟨s.cache ++ [(pointer, url)], s.calls ++ [pointer]⟩, .ok url))) := by
  cases hpointer : objectPointerFromUri text with
  | none =>
      refine .inl ⟨?_, fun pointer h => by cases h⟩
      simp only [signText, hpointer]
  | some pointer =>
      cases hurl : SignState.url? s.cache pointer with
      | some url =>
          refine .inr (.inl ⟨pointer, url, rfl, hurl, ?_⟩)
          simp only [signText, hpointer, hurl]
      | none =>
          cases hrequest : storage.request ttl s.calls.length pointer with
          | none =>
              refine .inl ⟨?_, fun p h => ?_⟩
              · simp only [signText, hpointer, hurl, hrequest]
              · cases h
                rw [← request_isSome_iff storage ttl s.calls.length, hrequest]
                rfl
          | some reply =>
              refine .inr (.inr ⟨pointer, reply, rfl, hurl, hrequest, ?_⟩)
              simp only [signText, hpointer, hurl, hrequest]
              cases reply <;> rfl

variable {storage ttl}

theorem Signing.initial : Signing storage ttl {} :=
  ⟨rfl, List.nodup_nil, fun _ h => absurd h List.not_mem_nil⟩

theorem Signing.signs {s : SignState} (h : Signing storage ttl s) {pointer : String × String}
    {url : String} (hurl : SignState.url? s.cache pointer = some url) :
    storage.signs pointer.1 = true := by
  obtain ⟨n, hn⟩ := h.genuine _ (SignState.mem_of_url? hurl)
  rw [← request_isSome_iff storage ttl n, hn]
  rfl

theorem Signing.called {s : SignState} (h : Signing storage ttl s) {pointer : String × String}
    {reply : Except String String} (hnew : SignState.url? s.cache pointer = none)
    (hreply : storage.request ttl s.calls.length pointer = some reply) :
    (s.calls ++ [pointer]).Nodup ∧ ∀ url, reply = .ok url →
      Signing storage ttl ⟨s.cache ++ [(pointer, url)], s.calls ++ [pointer]⟩ := by
  have honce : (s.calls ++ [pointer]).Nodup := by
    rw [SignState.url?_eq_none_iff, ← h.calls] at hnew
    exact List.nodup_append'.mpr ⟨h.once, List.nodup_singleton pointer,
      List.disjoint_singleton.mpr hnew⟩
  refine ⟨honce, ?_⟩
  rintro url rfl
  refine ⟨by rw [List.map_append, h.calls]; rfl, honce, ?_⟩
  intro entry hentry
  obtain hentry | hentry := List.mem_append.mp hentry
  · exact h.genuine entry hentry
  · rw [List.mem_singleton.mp hentry]
    exact ⟨s.calls.length, hreply⟩

theorem replacedText_of_url {text url : String} {pointer : String × String}
    {urls : List ((String × String) × String)} (hpointer : objectPointerFromUri text = some pointer)
    (hsigns : storage.signs pointer.1 = true) (hurl : SignState.url? urls pointer = some url) :
    replacedText (some storage) urls text = url := by
  simp only [replacedText, hpointer, Option.any_some, hsigns, if_true, hurl, Option.getD_some]

theorem replacedText_of_unsigned {text : String} (urls : List ((String × String) × String))
    (hunsigned : ∀ pointer ∈ objectPointerFromUri text, storage.signs pointer.1 = false) :
    replacedText (some storage) urls text = text := by
  rw [replacedText]
  split
  · rfl
  · rename_i pointer hpointer
    rw [Option.any_some, hunsigned pointer hpointer]
    rfl

/-- A text that has its URL is one that a walk has seen, and its URL is known from then on. -/
theorem Signing.known {s : SignState} (h : Signing storage ttl s) {text url : String}
    {pointer : String × String} (hpointer : objectPointerFromUri text = some pointer)
    (hurl : SignState.url? s.cache pointer = some url) :
    (∀ p ∈ objectPointerFromUri text, storage.signs p.1 →
      ∃ url, SignState.url? s.cache p = some url) ∧
    ∀ later : SignState, s.cache <+: later.cache →
      replacedText (some storage) later.cache text = url := by
  constructor
  · intro p hp _
    cases hpointer.symm.trans hp
    exact ⟨url, hurl⟩
  · rintro later ⟨added, hadded⟩
    exact replacedText_of_url hpointer (h.signs hurl) (hadded ▸ SignState.url?_append hurl)

variable (storage ttl) in
/-- A walk only adds to the cache, and what is cached stands for its pointers from then on. -/
def signRule : Json.WalkRule (signText storage ttl) where
  inv := Signing storage ttl
  safe s := s.calls.Nodup
  le s s' := s.cache <+: s'.cache
  known s := replacedText (some storage) s.cache
  seen s text := ∀ pointer ∈ objectPointerFromUri text, storage.signs pointer.1 →
    ∃ url, SignState.url? s.cache pointer = some url
  refl s := List.prefix_refl s.cache
  trans := List.IsPrefix.trans
  seen_mono := by
    rintro s s' text ⟨later, hlater⟩ hseen pointer hpointer hsigns
    obtain ⟨url, hurl⟩ := hseen pointer hpointer hsigns
    exact ⟨url, hlater ▸ SignState.url?_append hurl⟩
  safe_of_inv h := h.once
  leaf_safe := by
    intro s text hs
    obtain ⟨hstep, -⟩ | ⟨pointer, url, -, -, hstep⟩ | ⟨pointer, reply, -, hnew, hreply, hstep⟩ :=
      signText_cases storage ttl text s
    · rw [hstep]
      exact hs.once
    · rw [hstep]
      exact hs.once
    · rw [hstep]
      cases reply <;> exact (hs.called hnew hreply).1
  leaf_ok := by
    intro s s' text text' hs hleaf
    obtain ⟨hstep, hsigns⟩ | ⟨pointer, url, hpointer, hurl, hstep⟩ |
      ⟨pointer, reply, hpointer, hnew, hreply, hstep⟩ := signText_cases storage ttl text s
    · cases hleaf.symm.trans hstep
      refine ⟨hs, List.prefix_refl _, ?_, fun later _ => replacedText_of_unsigned _ hsigns⟩
      intro pointer hpointer htrue
      rw [hsigns pointer hpointer] at htrue
      cases htrue
    · cases hleaf.symm.trans hstep
      obtain ⟨hseen, hknown⟩ := hs.known hpointer hurl
      exact ⟨hs, List.prefix_refl _, hseen, hknown⟩
    · cases reply with
      | error exc => cases hleaf.symm.trans hstep
      | ok url =>
          cases hleaf.symm.trans hstep
          have hnext := (hs.called hnew hreply).2 text' rfl
          obtain ⟨hseen, hknown⟩ := hnext.known hpointer (SignState.url?_concat hnew text')
          exact ⟨hnext, List.prefix_append _ _, hseen, hknown⟩

end Resolve

/-- A call that fails was made for one of the signed pointers of the payload. -/
def FailedFor (storage : Option SigningStorage) (ttl : Nat) (payload : Json)
    (exc : String) : Prop :=
  ∃ pointer ∈ signedPointers storage payload, ∃ s ∈ storage, ∃ n,
    s.request ttl n pointer = some (.error exc)

theorem mem_signedPointers {storage : Option SigningStorage} {payload : Json}
    {pointer : String × String} : pointer ∈ signedPointers storage payload ↔
      (∃ text ∈ payload.strings, objectPointerFromUri text = some pointer) ∧
        storage.any (·.signs pointer.1) = true := by
  rw [signedPointers, List.mem_filter, List.mem_filterMap]

section Resolve
variable {storage : SigningStorage} {ttl : Nat} {payload : Json}

theorem calls_nodup : (resolveSignedUris (some storage) ttl payload).1.Nodup :=
  (signRule storage ttl).walk_safe payload Signing.initial

theorem resolve_error {exc : String}
    (h : (resolveSignedUris (some storage) ttl payload).2 = .error exc) :
    FailedFor (some storage) ttl payload exc := by
  obtain ⟨text, htext, s, s', hs, hstep⟩ :=
    (signRule storage ttl).walk_error payload Signing.initial (Prod.ext rfl h)
  obtain ⟨hkept, -⟩ | ⟨_, _, -, -, hkept⟩ | ⟨pointer, reply, hpointer, -, hreply, hcall⟩ :=
    signText_cases storage ttl text s
  · cases hstep.symm.trans hkept
  · cases hstep.symm.trans hkept
  · cases reply with
    | ok url => cases hstep.symm.trans hcall
    | error exc' =>
        cases hstep.symm.trans hcall
        refine ⟨pointer, mem_signedPointers.mpr ⟨⟨text, htext, hpointer⟩, ?_⟩, storage, rfl,
          s.calls.length, hreply⟩
        rw [Option.any_some, ← request_isSome_iff storage ttl s.calls.length, hreply]
        rfl

/-- The payload with every signed pointer replaced by an URL that was answered for it. -/
def Replaced (storage : Option SigningStorage) (ttl : Nat) (payload result : Json)
    (calls : List (String × String)) : Prop :=
  ∃ urls : List ((String × String) × String), calls = urls.map (·.1) ∧
    (∀ entry ∈ urls, ∃ s ∈ storage, SignedBy s ttl entry) ∧
    (∀ pointer ∈ signedPointers storage payload, pointer ∈ calls) ∧
    result = payload.mapStrings (replacedText storage urls)

theorem resolve_ok {result : Json}
    (h : (resolveSignedUris (some storage) ttl payload).2 = .ok result) :
    Replaced (some storage) ttl payload result
      (resolveSignedUris (some storage) ttl payload).1 := by
  have hwalk := (signRule storage ttl).walk_ok payload Signing.initial (Prod.ext rfl h)
  refine ⟨_, hwalk.inv.calls, fun entry hentry => ⟨storage, rfl,
    hwalk.inv.genuine entry hentry⟩, ?_,
    (hwalk.known _ (List.prefix_refl _)).symm⟩
  intro pointer hpointer
  obtain ⟨⟨text, htext, hparsed⟩, hsigns⟩ := mem_signedPointers.mp hpointer
  obtain ⟨url, hurl⟩ := hwalk.seen text htext pointer hparsed hsigns
  show pointer ∈ (payload.walkStrings (signText storage ttl) {}).1.calls
  rw [hwalk.inv.calls]
  exact List.mem_map.mpr ⟨_, SignState.mem_of_url? hurl, rfl⟩

theorem signText_of_unsigned {text : String}
    (hunsigned : ∀ pointer ∈ objectPointerFromUri text, storage.signs pointer.1 = false) :
    signText storage ttl text {} = ({}, .ok text) := by
  rw [signText]
  split
  · rfl
  · rename_i pointer hpointer
    have hnone : storage.request ttl 0 pointer = none := by
      rw [← Option.not_isSome_iff_eq_none, request_isSome_iff, hunsigned pointer hpointer]
      exact Bool.false_ne_true
    simp only [SignState.url?, List.find?_nil, Option.map_none, List.length_nil, hnone]

/-- A second pass over a result finds no pointer that the storage signs. -/
theorem resolve_again {calls : List (String × String)} {result : Json}
    (hurls : ∀ n pointer url, storage.request ttl n pointer = some (.ok url) →
      objectPointerFromUri url = none)
    (h : Replaced (some storage) ttl payload result calls) :
    resolveSignedUris (some storage) ttl result = ([], .ok result) := by
  obtain ⟨urls, hcalls, hgenuine, hall, rfl⟩ := h
  have hquiet : Json.walkStrings (signText storage ttl)
      (payload.mapStrings (replacedText (some storage) urls)) {}
        = ({}, .ok (payload.mapStrings (replacedText (some storage) urls))) := by
    refine Json.walk_quiet _ fun text' htext' => ?_
    rw [Json.strings_mapStrings] at htext'
    obtain ⟨text, htext, rfl⟩ := List.mem_map.mp htext'
    refine signText_of_unsigned fun pointer' hpointer' => ?_
    by_contra hsigns
    rw [Bool.not_eq_false] at hsigns
    cases hpointer : objectPointerFromUri text with
    | none =>
        rw [replacedText_of_unsigned urls (by simp [hpointer]), hpointer] at hpointer'
        cases hpointer'
    | some pointer =>
        by_cases hsigned : storage.signs pointer.1 = true
        · -- the text is an URL now
          have hcalled : pointer ∈ urls.map (·.1) :=
            hcalls ▸ hall pointer (mem_signedPointers.mpr ⟨⟨text, htext, hpointer⟩, hsigned⟩)
          obtain ⟨url, hurl⟩ := Option.ne_none_iff_exists'.mp
            fun hnone => SignState.url?_eq_none_iff.mp hnone hcalled
          obtain ⟨s, hs, n, hanswered⟩ := hgenuine _ (SignState.mem_of_url? hurl)
          cases hs
          rw [replacedText_of_url hpointer hsigned hurl, hurls n pointer url hanswered] at hpointer'
          cases hpointer'
        · rw [Bool.not_eq_true] at hsigned
          rw [replacedText_of_unsigned urls (by simp [hpointer, hsigned]), hpointer] at hpointer'
          cases hpointer'
          exact absurd hsigns (by simp [hsigned])
  rw [resolveSignedUris]
  simp only [hquiet]

end Resolve

/-- No call is made twice. A result is the payload with the pointers that the storage signs
replaced by URLs answered for them, everything else as it was, and a second pass leaves it alone;
there is a result unless a call for one of these pointers fails. -/
theorem signed_uris_replaced (storage : Option SigningStorage) (ttl : Nat) (payload : Json)
    (hurls : ∀ s ∈ storage, ∀ n pointer url, s.request ttl n pointer = some (.ok url) →
      objectPointerFromUri url = none) :
    (resolveSignedUris storage ttl payload).1.Nodup ∧
    (∀ result, (resolveSignedUris storage ttl payload).2 = .ok result →
      Replaced storage ttl payload result (resolveSignedUris storage ttl payload).1 ∧
      resolveSignedUris storage ttl result = ([], .ok result)) ∧
    ∀ exc, (resolveSignedUris storage ttl payload).2 = .error exc →
      FailedFor storage ttl payload exc := by
  cases storage with
  | none =>
      refine ⟨List.nodup_nil, ?_, fun exc h => by cases h⟩
      intro result h
      cases h
      refine ⟨⟨[], rfl, fun _ h => absurd h List.not_mem_nil, ?_, ?_⟩, rfl⟩
      · intro pointer hpointer
        cases (mem_signedPointers.mp hpointer).2
      · refine (Json.mapStrings_eq_self payload fun text _ => ?_).symm
        rw [replacedText]
        split <;> rfl
  | some storage =>
      refine ⟨calls_nodup, ?_, fun exc => resolve_error⟩
      intro result h
      exact ⟨resolve_ok h, resolve_again (hurls storage rfl) (resolve_ok h)⟩

/-- The URLs of a bucket. -/
def bucketUrl (_ : Nat) (key : String) (_ : Nat) : Except String String :=
  .ok ("https://media.example/" ++ key)

theorem objectPointerFromUri_bucketUrl (key : String) :
    objectPointerFromUri ("https://media.example/" ++ key) = none := by
  have hnone : objectSchemes.find? (fun backend => (backend ++ "://").toList.isPrefixOf
      ("https://media.example/" ++ key).toList) = none := by
    rw [String.toList_append]
    rfl
  rw [objectPointerFromUri, hnone]
  rfl

theorem bucketUrl_no_pointer : ∀ s ∈ some (SigningStorage.single "r2" bucketUrl),
    ∀ n pointer url, s.request 900 n pointer = some (.ok url) →
      objectPointerFromUri url = none := by
  rintro s hs n pointer url h
  cases hs
  rw [SigningStorage.request] at h
  split at h
  · cases h
    exact objectPointerFromUri_bucketUrl pointer.2
  · cases h

def cutoverPayload : Json :=
  .obj [("legacy", .str "r2://old-media/run-1/final.mp4"),
    ("future", .str "s3://new-media/run-2/final.mp4"), ("attempts", .num 1)]

def cutoverResult : Json :=
  .obj [("legacy", .str "https://media.example/run-1/final.mp4"),
    ("future", .str "s3://new-media/run-2/final.mp4"), ("attempts", .num 1)]

theorem signed_uris_replaced_in_cutover :
    (resolveSignedUris (some (.single "r2" bucketUrl)) 900 cutoverPayload).1
        = [("r2", "run-1/final.mp4")] ∧
    Replaced (some (.single "r2" bucketUrl)) 900 cutoverPayload cutoverResult
        [("r2", "run-1/final.mp4")] ∧
    resolveSignedUris (some (.single "r2" bucketUrl)) 900 cutoverResult
        = ([], .ok cutoverResult) := by
  have hcutover : resolveSignedUris (some (.single "r2" bucketUrl)) 900 cutoverPayload
      = ([("r2", "run-1/final.mp4")], .ok cutoverResult) := by rfl
  obtain ⟨-, hresult, -⟩ := signed_uris_replaced (some (.single "r2" bucketUrl)) 900 cutoverPayload
    bucketUrl_no_pointer
  obtain ⟨hreplaced, hagain⟩ := hresult cutoverResult (by rw [hcutover])
  rw [hcutover] at hreplaced
  exact ⟨by rw [hcutover], hreplaced, hagain⟩

/-- A storage for one backend leaves the pointers of another in place. -/
theorem unsigned_pointer :
    ¬ ∀ (storage : SigningStorage) (ttl : Nat) (payload result : Json),
      (∀ n pointer url, storage.request ttl n pointer = some (.ok url) →
        objectPointerFromUri url = none) →
      (resolveSignedUris (some storage) ttl payload).2 = .ok result →
      ∃ url : String × String → String,
        (∀ text ∈ payload.strings, ∀ pointer ∈ objectPointerFromUri text,
          ∃ n, storage.request ttl n pointer = some (.ok (url pointer))) ∧
        result = payload.mapStrings fun text => (objectPointerFromUri text).elim text url := by
  intro h
  obtain ⟨url, hsigned, -⟩ := h (.single "r2" bucketUrl) 900 (.str "s3://new-media/final.mp4")
    (.str "s3://new-media/final.mp4") (bucketUrl_no_pointer _ rfl) rfl
  obtain ⟨n, hn⟩ := hsigned _ (List.mem_singleton_self _) ("s3", "final.mp4") rfl
  cases hn

end Orchestrator
