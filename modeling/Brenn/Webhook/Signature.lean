import Mathlib

/-!
Webhook requests signed over a timestamp and a body.

The operator writes a template with a hole for each, and the signature is the MAC of the filled
template. Texts are the bytes the source compares. The MAC is a parameter. The pipeline is modelled
for this scheme; the others sign other strings.
-/

namespace Brenn.Webhook

abbrev Bytes := List UInt8

def ascii (text : String) : Bytes := text.toList.map fun c => c.toNat.toUInt8

/-! ### Templates -/

structure TemplateParts where
  templatePrefix : Bytes
  templateMid : Bytes
  templateSuffix : Bytes
  tBeforeBody : Bool
  deriving Repr, DecidableEq

/-- The closed `{…}` spans of a template in order; `held` is the span being read. -/
def placeholders : Option Bytes → Bytes → List Bytes
  | _, [] => []
  | none, b :: rest => if b = 123 then placeholders (some [b]) rest else placeholders none rest
  | some held, b :: rest =>
    if b = 125 then (held ++ [b]) :: placeholders none rest else placeholders (some (held ++ [b])) rest

def find (needle : Bytes) : Bytes → Option Nat
  | [] => if needle.isEmpty then some 0 else none
  | b :: rest => if needle.isPrefixOf (b :: rest) then some 0 else (find needle rest).map (· + 1)

def tHole : Bytes := [123, 116, 125]
def bodyHole : Bytes := [123, 98, 111, 100, 121, 125]

/-- Split a template that has each hole once and nothing else in braces; the source panics on any
    other. -/
def resolveTemplate (template : Bytes) : Option TemplateParts := do
  let found := placeholders none template
  if found.count tHole ≠ 1 ∨ found.count bodyHole ≠ 1 ∨ (found.any fun p => p ≠ tHole ∧ p ≠ bodyHole) = true then none
  else
    let tPos ← find tHole template
    let bodyPos ← find bodyHole template
    if tPos < bodyPos then
      some
        { templatePrefix := template.take tPos
          templateMid := (template.take bodyPos).drop (tPos + tHole.length)
          templateSuffix := template.drop (bodyPos + bodyHole.length)
          tBeforeBody := true }
    else
      some
        { templatePrefix := template.take bodyPos
          templateMid := (template.take tPos).drop (bodyPos + bodyHole.length)
          templateSuffix := template.drop (tPos + tHole.length)
          tBeforeBody := false }

def TemplateParts.canonical (parts : TemplateParts) (t body : Bytes) : Bytes :=
  if parts.tBeforeBody then parts.templatePrefix ++ (t ++ (parts.templateMid ++ (body ++ parts.templateSuffix)))
  else parts.templatePrefix ++ (body ++ (parts.templateMid ++ (t ++ parts.templateSuffix)))

example : resolveTemplate (ascii "v0:\x7bt\x7d:\x7bbody\x7d") = some ⟨ascii "v0:", ascii ":", [], true⟩ := by decide

/-! ### Header values -/

def isDigit (b : UInt8) : Bool := 48 ≤ b && b ≤ 57

/-- The value of a run of digits; absent for an empty run and for any other byte. -/
def parseDigits (text : Bytes) : Option Nat :=
  if text ≠ [] ∧ text.all isDigit then some (text.foldl (fun value b => value * 10 + (b.toNat - 48)) 0) else none

/-- Read an `i64` as the standard library does: one optional sign, then digits. -/
def parseI64 : Bytes → Option Int
  | 43 :: digits => ((parseDigits digits).filter (· < 2 ^ 63)).map Int.ofNat
  | 45 :: digits => ((parseDigits digits).filter (· ≤ 2 ^ 63)).map fun value => -Int.ofNat value
  | digits => ((parseDigits digits).filter (· < 2 ^ 63)).map Int.ofNat

def isVisible (b : UInt8) : Bool := 32 ≤ b && b < 127 || b = 9

/-- A header value as text: visible ASCII and tabs. -/
def toStr (value : Bytes) : Option Bytes := if value.all isVisible then some value else none

def hexDigit (b : UInt8) : Option UInt8 :=
  if 48 ≤ b ∧ b ≤ 57 then some (b - 48)
  else if 97 ≤ b ∧ b ≤ 102 then some (b - 87)
  else if 65 ≤ b ∧ b ≤ 70 then some (b - 55)
  else none

def hexChar (value : UInt8) : UInt8 := if value < 10 then value + 48 else value + 87

def hexDecode : Bytes → Option Bytes
  | [] => some []
  | [_] => none
  | high :: low :: rest => do
    let high ← hexDigit high
    let low ← hexDigit low
    let rest ← hexDecode rest
    some ((high * 16 + low) :: rest)

inductive HexFormat where
  | hex
  | v0Hex
  | v1Hex
  | sha256Hex
  deriving Repr, DecidableEq

def HexFormat.tag : HexFormat → Bytes
  | .hex => []
  | .v0Hex => ascii "v0="
  | .v1Hex => ascii "v1="
  | .sha256Hex => ascii "sha256="

/-- The 32 bytes a signature header states. -/
def parseSigHeader (value : Bytes) (format : HexFormat) : Option Bytes := do
  let text ← toStr value
  if format.tag.isPrefixOf text then (hexDecode (text.drop format.tag.length)).filter fun bytes => bytes.length = 32
  else none

/-- Whether bytes are UTF-8, by the table of well-formed sequences. -/
def isUtf8 : Bytes → Bool
  | [] => true
  | a :: rest =>
    if a < 128 then isUtf8 rest
    else
      match rest with
      | [] => false
      | b :: rest =>
        if 194 ≤ a ∧ a ≤ 223 then 128 ≤ b && b ≤ 191 && isUtf8 rest
        else
          match rest with
          | [] => false
          | c :: rest =>
            let third := 128 ≤ c && c ≤ 191
            if a = 224 then 160 ≤ b && b ≤ 191 && third && isUtf8 rest
            else if a = 237 then 128 ≤ b && b ≤ 159 && third && isUtf8 rest
            else if 225 ≤ a ∧ a ≤ 239 then 128 ≤ b && b ≤ 191 && third && isUtf8 rest
            else
              match rest with
              | [] => false
              | d :: rest =>
                let fourth := 128 ≤ d && d ≤ 191
                if a = 240 then 144 ≤ b && b ≤ 191 && third && fourth && isUtf8 rest
                else if 241 ≤ a ∧ a ≤ 243 then 128 ≤ b && b ≤ 191 && third && fourth && isUtf8 rest
                else if a = 244 then 128 ≤ b && b ≤ 143 && third && fourth && isUtf8 rest
                else false

def isBlank (b : UInt8) : Bool := b = 32 || b = 9

/-- A media type: what stands before the first `;`, trimmed and in lower case. -/
def mediaType (text : Bytes) : Bytes :=
  (((text.takeWhile (· ≠ 59)).dropWhile isBlank).rdropWhile isBlank).map fun b => if 65 ≤ b ∧ b ≤ 90 then b + 32 else b

/-! ### Verification -/

inductive WebhookRejection where
  | wrongContentType
  | bodyNotUtf8
  | missingOrMalformedSignatureHeader
  | missingOrMalformedKeyIdHeader
  | unknownKeyId
  | hmacMismatch
  | timestampOutOfWindow
  deriving Repr, DecidableEq

structure VerifiedRequest where
  keyId : Bytes
  body : Bytes
  deriving Repr, DecidableEq

/-- An inbound request; `headers` answers the first value of a header. -/
structure Request where
  contentType : Option Bytes
  headers : String → Option Bytes
  body : Bytes

/-- An endpoint that signs a timestamp with the body. -/
structure Endpoint where
  contentType : Bytes
  sigHeader : String
  sigFormat : HexFormat
  timestampHeader : String
  /-- The template as the operator wrote it, and split. -/
  templateText : Bytes
  template : TemplateParts
  resolved : resolveTemplate templateText = some template
  maxSkewSecs : Nat
  /-- Configuration refuses a window of one second only. -/
  skewed : 0 < maxSkewSecs
  keyIdHeader : Option String
  /-- Key id and secret; configuration refuses an empty table. -/
  keys : List (Bytes × Bytes)
  keyed : keys ≠ []

structure KeyResolution where
  effectiveKey : Bytes
  resolvedId : Bytes
  unknown : Bool
  deriving Repr, DecidableEq

def dummyKey : Bytes := List.replicate 32 0

def isValidKeyId (id : Bytes) : Bool :=
  !id.isEmpty && id.length ≤ 64 && id.all fun b =>
    isDigit b || 65 ≤ b && b ≤ 90 || 97 ≤ b && b ≤ 122 || b = 46 || b = 95 || b = 45

def checkContentType (contentType : Option Bytes) (expected : Bytes) : Except WebhookRejection Unit :=
  match contentType.bind toStr with
  | some text => if mediaType text = expected then .ok () else .error .wrongContentType
  | none => .error .wrongContentType

namespace Endpoint

variable (endpoint : Endpoint)

/-- The secret to verify with. An unknown id is verified against a dummy, so that it takes as long. -/
def resolveKey (request : Request) : Except WebhookRejection KeyResolution :=
  match endpoint.keyIdHeader with
  | none =>
    let lone := endpoint.keys.head endpoint.keyed
    .ok ⟨lone.2, lone.1, false⟩
  | some header =>
    match (request.headers header).bind toStr with
    | none => .error .missingOrMalformedKeyIdHeader
    | some id =>
      if isValidKeyId id = false then .error .missingOrMalformedKeyIdHeader
      else
        match endpoint.keys.find? fun key => key.1 = id with
        | some key => .ok ⟨key.2, id, false⟩
        | none => .ok ⟨dummyKey, id, true⟩

def timestamp (request : Request) : Option Bytes := (request.headers endpoint.timestampHeader).bind toStr

def signature (request : Request) : Option Bytes :=
  (request.headers endpoint.sigHeader).bind fun value => parseSigHeader value endpoint.sigFormat

/-- How far a timestamp is from now; a difference beyond an `i64` is as far as can be. -/
def skew (nowSecs t : Int) : Nat :=
  if -(2 ^ 63) ≤ nowSecs - t ∧ nowSecs - t < 2 ^ 63 then (nowSecs - t).natAbs else 2 ^ 64 - 1

def orReject {α : Type} (rejection : WebhookRejection) : Option α → Except WebhookRejection α
  | some value => .ok value
  | none => .error rejection

variable (mac : Bytes → Bytes → Bytes)

def verifyRequest (request : Request) (nowSecs : Int) : Except WebhookRejection VerifiedRequest := do
  checkContentType request.contentType endpoint.contentType
  if isUtf8 request.body = false then .error .bodyNotUtf8
  else
    let tStr ← orReject .missingOrMalformedSignatureHeader (endpoint.timestamp request)
    let t ← orReject .missingOrMalformedSignatureHeader (parseI64 tStr)
    if skew nowSecs t > endpoint.maxSkewSecs then .error .timestampOutOfWindow
    else
      let sig ← orReject .missingOrMalformedSignatureHeader (endpoint.signature request)
      let key ← endpoint.resolveKey request
      if key.unknown then .error .unknownKeyId
      else if mac key.effectiveKey (endpoint.template.canonical tStr request.body) ≠ sig then .error .hmacMismatch
      else .ok ⟨key.resolvedId, request.body⟩

end Endpoint

/-! ### Where a run of bytes ends -/

/-- The bytes before a text that leaves `p` are found again by reading as long as `p` holds. -/
theorem takeWhile_run {p : UInt8 → Bool} {run mid : Bytes} (rest : Bytes) (inside : ∀ b ∈ run, p b = true)
    (marked : ∃ b ∈ mid, p b = false) : (run ++ (mid ++ rest)).takeWhile p = run ++ mid.takeWhile p := by
  rw [List.takeWhile_append_of_pos inside]
  congr 1
  induction mid with
  | nil => simp at marked
  | cons b mid ih =>
    by_cases holds : p b = true
    · obtain ⟨mark, member, leaves⟩ := marked
      have later : mark ∈ mid := by
        rcases List.mem_cons.mp member with rfl | later
        · simp [holds] at leaves
        · exact later
      simpa [holds] using ih ⟨mark, later, leaves⟩
    · simp [holds]

/-- A text that stands at two places of one string begins what lies between its starts and itself. -/
theorem prefix_of_shift {mid moved left right : Bytes} (shifted : mid ++ left = moved ++ (mid ++ right)) :
    mid <+: moved ++ mid ∧ (moved = [] → left = right) := by
  refine ⟨List.prefix_of_prefix_length_le ⟨left, rfl⟩ ⟨right, ?_⟩ (by simp), ?_⟩
  · rw [List.append_assoc, shifted]
  · rintro rfl
    exact List.append_cancel_left shifted

theorem suffix_of_shift {mid moved left right : Bytes} (shifted : left ++ mid = right ++ mid ++ moved) :
    mid <:+ mid ++ moved ∧ (moved = [] → left = right) := by
  refine ⟨List.suffix_of_suffix_length_le ⟨left, rfl⟩ ⟨right, ?_⟩ (by simp), ?_⟩
  · rw [shifted, List.append_assoc]
  · rintro rfl
    exact (List.append_left_inj mid).mp (by rw [shifted, List.append_nil])

/-! ### The spellings of a timestamp -/

def isTimestampByte (b : UInt8) : Bool := isDigit b || b = 43 || b = 45

/-- What the integer parser accepts, as a shape: signs only in front. -/
structure IsSpelling (t : Bytes) : Prop where
  nonempty : t ≠ []
  bytes : ∀ b ∈ t, isTimestampByte b = true
  tail : ∀ b ∈ t.tail, isDigit b = true

theorem digits_of_parseDigits {text : Bytes} {value : Nat} (parsed : parseDigits text = some value) :
    text ≠ [] ∧ ∀ b ∈ text, isDigit b = true := by
  unfold parseDigits at parsed
  split at parsed
  next accepted => exact ⟨accepted.1, List.all_eq_true.mp accepted.2⟩
  next => cases parsed

theorem isTimestampByte_of_digit {b : UInt8} (digit : isDigit b = true) : isTimestampByte b = true := by
  simp [isTimestampByte, digit]

theorem isSpelling_of_parse {t : Bytes} {value : Int} (parsed : parseI64 t = some value) : IsSpelling t := by
  -- a sign is followed by a run of digits
  have signed : ∀ {sign : UInt8} {digits : Bytes} {read : Nat}, isTimestampByte sign = true →
      parseDigits digits = some read → IsSpelling (sign :: digits) := by
    intro sign digits read known parsed
    obtain ⟨-, each⟩ := digits_of_parseDigits parsed
    refine ⟨List.cons_ne_nil _ _, List.forall_mem_cons.mpr ⟨known, ?_⟩, each⟩
    exact fun b member => isTimestampByte_of_digit (each b member)
  unfold parseI64 at parsed
  split at parsed
  · obtain ⟨read, kept, -⟩ := Option.map_eq_some_iff.mp parsed
    exact signed (by decide) (Option.filter_eq_some_iff.mp kept).1
  · obtain ⟨read, kept, -⟩ := Option.map_eq_some_iff.mp parsed
    exact signed (by decide) (Option.filter_eq_some_iff.mp kept).1
  · obtain ⟨read, kept, -⟩ := Option.map_eq_some_iff.mp parsed
    obtain ⟨nonempty, each⟩ := digits_of_parseDigits (Option.filter_eq_some_iff.mp kept).1
    exact ⟨nonempty, fun b member => isTimestampByte_of_digit (each b member),
      fun b member => each b (List.mem_of_mem_tail member)⟩

/-! ### The canonical string -/

namespace TemplateParts

/-- The text between the holes holds a byte that no timestamp could run over. In front of the body a
    sign is such a byte, since a timestamp has one only as its first. -/
def Separates (parts : TemplateParts) : Prop :=
  ∃ b ∈ parts.templateMid, (if parts.tBeforeBody then isDigit b else isTimestampByte b) = false

instance (parts : TemplateParts) : Decidable parts.Separates := inferInstanceAs (Decidable (∃ b ∈ _, _))

/-- The text between the holes cannot tell whether `moved` stands with the timestamp or with the body. -/
def Absorbs (parts : TemplateParts) (moved : Bytes) : Prop :=
  if parts.tBeforeBody then parts.templateMid <+: moved ++ parts.templateMid
  else parts.templateMid <:+ parts.templateMid ++ moved

/-- A timestamp with bytes moved into it from the side of the body. -/
def extend (parts : TemplateParts) (t moved : Bytes) : Bytes := if parts.tBeforeBody then t ++ moved else moved ++ t

/-- Where one timestamp is the other extended, the text in between absorbs the difference. -/
theorem absorbs_of_canonical {parts : TemplateParts} {t u body other : Bytes}
    (same : parts.canonical t body = parts.canonical u other) :
    ∃ moved, parts.Absorbs moved ∧ (moved = [] → body = other) ∧ (u = parts.extend t moved ∨ t = parts.extend u moved) := by
  unfold canonical at same
  unfold Absorbs extend
  by_cases order : parts.tBeforeBody = true
  · simp only [order, if_true] at same ⊢
    have cut : t ++ (parts.templateMid ++ body) = u ++ (parts.templateMid ++ other) := by
      have behind := List.append_cancel_left same
      exact (List.append_left_inj parts.templateSuffix).mp (by simpa using behind)
    rcases List.append_eq_append_iff.mp cut with ⟨moved, rfl, rest⟩ | ⟨moved, rfl, rest⟩
    · obtain ⟨absorbed, bodies⟩ := prefix_of_shift rest
      exact ⟨moved, absorbed, bodies, .inl rfl⟩
    · obtain ⟨absorbed, bodies⟩ := prefix_of_shift rest
      exact ⟨moved, absorbed, fun nothing => (bodies nothing).symm, .inr rfl⟩
  · simp only [order, if_false, Bool.false_eq_true] at same ⊢
    have cut : body ++ parts.templateMid ++ t = other ++ parts.templateMid ++ u := by
      have behind := List.append_cancel_left same
      exact (List.append_left_inj parts.templateSuffix).mp (by simpa using behind)
    rcases List.append_eq_append_iff.mp cut with ⟨moved, rest, rfl⟩ | ⟨moved, rest, rfl⟩
    · obtain ⟨absorbed, bodies⟩ := suffix_of_shift rest
      exact ⟨moved, absorbed, fun nothing => (bodies nothing).symm, .inr rfl⟩
    · obtain ⟨absorbed, bodies⟩ := suffix_of_shift rest
      exact ⟨moved, absorbed, bodies, .inl rfl⟩

/-- The other way round, what is moved out of the timestamp makes a body of the same bytes. -/
theorem canonical_of_absorbs {parts : TemplateParts} {moved : Bytes} (absorbs : parts.Absorbs moved) (t : Bytes) :
    ∃ body : Bytes, body.Perm moved ∧ parts.canonical t body = parts.canonical (parts.extend t moved) [] := by
  unfold Absorbs at absorbs
  unfold canonical extend
  by_cases order : parts.tBeforeBody = true
  · simp only [order, if_true] at absorbs ⊢
    obtain ⟨body, joined⟩ := absorbs
    refine ⟨body, (List.perm_append_left_iff parts.templateMid).mp ?_, by simp [← List.append_assoc, joined]⟩
    rw [joined]
    exact List.perm_append_comm
  · simp only [order, if_false, Bool.false_eq_true] at absorbs ⊢
    obtain ⟨body, joined⟩ := absorbs
    refine ⟨body, (List.perm_append_right_iff parts.templateMid).mp ?_, by simp [← List.append_assoc, joined]⟩
    rw [joined]
    exact List.perm_append_comm

/-- A separator absorbs nothing that a timestamp could give up. -/
theorem Separates.absorbs_nothing {parts : TemplateParts} (separates : parts.Separates) {t moved : Bytes}
    (nonempty : t ≠ []) (spelled : IsSpelling (parts.extend t moved)) (absorbs : parts.Absorbs moved) : moved = [] := by
  have run : ∀ {p : UInt8 → Bool} {mid moved : Bytes}, (∀ b ∈ moved, p b = true) → (∃ b ∈ mid, p b = false) →
      mid <+: moved ++ mid → moved = [] := by
    intro p mid moved inside marked ⟨rest, joined⟩
    have own : mid.takeWhile p = (moved ++ (mid ++ [])).takeWhile p := by
      rw [List.append_nil, ← joined]
      exact (@takeWhile_run p [] mid rest (by simp) marked).symm
    rw [takeWhile_run [] inside marked] at own
    exact List.self_eq_append_left.mp own
  obtain ⟨mark, member, leaves⟩ := separates
  unfold Absorbs at absorbs
  unfold extend at spelled
  by_cases order : parts.tBeforeBody = true
  · simp only [order, if_true] at absorbs leaves spelled
    obtain ⟨first, digits, rfl⟩ := List.exists_cons_of_ne_nil nonempty
    exact run (fun b listed => spelled.tail b (List.mem_append_right _ listed)) ⟨mark, member, leaves⟩ absorbs
  · -- read from the end, the timestamp comes first
    simp only [order, if_false, Bool.false_eq_true] at absorbs leaves spelled
    have mirrored : parts.templateMid.reverse <+: moved.reverse ++ parts.templateMid.reverse := by
      rw [← List.reverse_append]
      exact List.reverse_prefix.mpr absorbs
    refine List.reverse_eq_nil_iff.mp (run (fun b listed => ?_) ⟨mark, List.mem_reverse.mpr member, leaves⟩ mirrored)
    exact spelled.bytes b (List.mem_append_left _ (List.mem_reverse.mp listed))

end TemplateParts

/-! ### Accepted requests -/

namespace Endpoint

variable {endpoint : Endpoint} {mac : Bytes → Bytes → Bytes} {request : Request} {nowSecs : Int}

theorem orReject_eq_ok {α : Type} {rejection : WebhookRejection} {value : Option α} {found : α} :
    orReject rejection value = .ok found ↔ value = some found := by
  cases value <;> simp [orReject]

/-- A timestamp header that is let through at an instant. -/
def InWindow (endpoint : Endpoint) (nowSecs : Int) (t : Bytes) : Prop :=
  ∃ value, parseI64 t = some value ∧ skew nowSecs value ≤ endpoint.maxSkewSecs

/-- What an accepted request had to show. -/
structure Shown (endpoint : Endpoint) (mac : Bytes → Bytes → Bytes) (request : Request) (nowSecs : Int) (t sig : Bytes)
    (key : KeyResolution) : Prop where
  typed : checkContentType request.contentType endpoint.contentType = .ok ()
  utf8 : isUtf8 request.body = true
  stamped : endpoint.timestamp request = some t
  inWindow : endpoint.InWindow nowSecs t
  signed : endpoint.signature request = some sig
  keyed : endpoint.resolveKey request = .ok key
  known : key.unknown = false
  matched : mac key.effectiveKey (endpoint.template.canonical t request.body) = sig

theorem shown_of_verify {verified : VerifiedRequest} (accepted : endpoint.verifyRequest mac request nowSecs = .ok verified) :
    verified.body = request.body ∧ ∃ t sig key, Shown endpoint mac request nowSecs t sig key := by
  unfold verifyRequest at accepted
  cases typed : checkContentType request.contentType endpoint.contentType with
  | error e => simp [typed, bind, Except.bind] at accepted
  | ok u =>
    simp only [typed, bind, Except.bind] at accepted
    split at accepted
    · cases accepted
    next utf8 =>
      split at accepted
      · cases accepted
      next tStr stamped =>
        split at accepted
        · cases accepted
        next t parsed =>
          split at accepted
          · cases accepted
          next inside =>
            split at accepted
            · cases accepted
            next sig signed =>
              split at accepted
              · cases accepted
              next key keyed =>
                split at accepted
                · cases accepted
                next known =>
                  split at accepted
                  · cases accepted
                  next matched =>
                    cases accepted
                    exact ⟨rfl, tStr, sig, key, typed, by simpa using utf8, orReject_eq_ok.mp stamped,
                      ⟨t, orReject_eq_ok.mp parsed, not_lt.mp inside⟩, orReject_eq_ok.mp signed, keyed, by simpa using known,
                      not_not.mp matched⟩

theorem Shown.accepted {t sig : Bytes} {key : KeyResolution} (shown : Shown endpoint mac request nowSecs t sig key) :
    endpoint.verifyRequest mac request nowSecs = .ok ⟨key.resolvedId, request.body⟩ := by
  obtain ⟨value, parsed, inside⟩ := shown.inWindow
  simp [verifyRequest, bind, Except.bind, shown.typed, shown.utf8, orReject, shown.stamped, parsed, not_lt.mpr inside,
    shown.signed, shown.keyed, shown.known, shown.matched]

/-! ### Moving bytes between the timestamp and the body -/

/-- Two requests that pass at one instant with one key and one signature carry one body. -/
def BindsBody (endpoint : Endpoint) (mac : Bytes → Bytes → Bytes) (nowSecs : Int) : Prop :=
  ∀ (first second : Request) (one two : VerifiedRequest),
    endpoint.verifyRequest mac first nowSecs = .ok one → endpoint.verifyRequest mac second nowSecs = .ok two →
    (endpoint.resolveKey first).map KeyResolution.effectiveKey =
      (endpoint.resolveKey second).map KeyResolution.effectiveKey →
    endpoint.signature first = endpoint.signature second → one.body = two.body ∧ first.body = second.body

/-- Two timestamps are let through of which one is the other with bytes from the body's side, and the
    text between the holes absorbs these. -/
def Slides (endpoint : Endpoint) (nowSecs : Int) : Prop :=
  ∃ t moved, moved ≠ [] ∧ endpoint.InWindow nowSecs t ∧ endpoint.InWindow nowSecs (endpoint.template.extend t moved) ∧
    endpoint.template.Absorbs moved

/-- The endpoint reads three headers, and lets some request through. -/
structure Open (endpoint : Endpoint) (nowSecs : Int) : Prop where
  stampApart : endpoint.timestampHeader ≠ endpoint.sigHeader
  keyApart : endpoint.keyIdHeader ≠ some endpoint.timestampHeader ∧ endpoint.keyIdHeader ≠ some endpoint.sigHeader
  passed : ∃ mac request verified, endpoint.verifyRequest mac request nowSecs = .ok verified

theorem bindsBody_of_not_slides (still : ¬ endpoint.Slides nowSecs) (injective : ∀ key, Function.Injective (mac key)) :
    endpoint.BindsBody mac nowSecs := by
  intro first second one two firstAccepted secondAccepted sameKey sameSignature
  obtain ⟨oneBody, t, sig, key, shown⟩ := shown_of_verify firstAccepted
  obtain ⟨twoBody, u, sig', key', shown'⟩ := shown_of_verify secondAccepted
  rw [shown.keyed, shown'.keyed] at sameKey
  have keys : key.effectiveKey = key'.effectiveKey := Except.ok.inj sameKey
  rw [shown.signed, shown'.signed] at sameSignature
  have signatures : sig = sig' := Option.some.inj sameSignature
  have macs : mac key.effectiveKey (endpoint.template.canonical t first.body) =
      mac key.effectiveKey (endpoint.template.canonical u second.body) := by
    rw [shown.matched, signatures, ← shown'.matched, keys]
  obtain ⟨moved, absorbs, bodies, extended⟩ := TemplateParts.absorbs_of_canonical (injective _ macs)
  have nothing : moved = [] := by
    by_contra something
    rcases extended with rfl | rfl
    · exact still ⟨t, moved, something, shown.inWindow, shown'.inWindow, absorbs⟩
    · exact still ⟨u, moved, something, shown'.inWindow, shown.inWindow, absorbs⟩
  exact ⟨by rw [oneBody, twoBody, bodies nothing], bodies nothing⟩

def sigText (format : HexFormat) (bytes : Bytes) : Bytes :=
  format.tag ++ bytes.flatMap fun b => [hexChar (b / 16), hexChar (b % 16)]

/-- A property of the bytes below a bound, checked value by value. -/
theorem forall_byte {p : UInt8 → Prop} {bound : Nat} (each : ∀ n < bound, p (UInt8.ofNat n)) {b : UInt8}
    (below : b.toNat < bound) : p b := by
  have own := each b.toNat below
  rwa [UInt8.ofNat_toNat] at own

theorem hexDigit_hexChar {value : UInt8} (digit : value.toNat < 16) :
    hexDigit (hexChar value) = some value ∧ isVisible (hexChar value) = true :=
  forall_byte (p := fun value => hexDigit (hexChar value) = some value ∧ isVisible (hexChar value) = true)
    (by decide +kernel) digit

theorem hexChar_nibbles (b : UInt8) :
    hexDigit (hexChar (b / 16)) = some (b / 16) ∧ hexDigit (hexChar (b % 16)) = some (b % 16) ∧ b / 16 * 16 + b % 16 = b ∧
      ∀ c ∈ [hexChar (b / 16), hexChar (b % 16)], isVisible c = true := by
  have byte := b.toNat_lt
  have high : hexDigit (hexChar (b / 16)) = _ ∧ _ := hexDigit_hexChar (by simp; omega)
  have low : hexDigit (hexChar (b % 16)) = _ ∧ _ := hexDigit_hexChar (by simp; omega)
  exact ⟨high.1, low.1, UInt8.toNat_inj.mp (by simp; omega), by simp [high.2, low.2]⟩

theorem parseSigHeader_sigText (format : HexFormat) {bytes : Bytes} (full : bytes.length = 32) :
    parseSigHeader (sigText format bytes) format = some bytes := by
  have decoded : ∀ bytes : Bytes, hexDecode (bytes.flatMap fun b => [hexChar (b / 16), hexChar (b % 16)]) = some bytes := by
    intro bytes
    induction bytes with
    | nil => rfl
    | cons b bytes ih =>
      obtain ⟨high, low, whole, -⟩ := hexChar_nibbles b
      simp [hexDecode, high, low, whole, ih]
  have tagged : ∀ b ∈ format.tag, isVisible b = true := by cases format <;> decide +kernel
  have visible : toStr (sigText format bytes) = some (sigText format bytes) := by
    refine if_pos (List.all_eq_true.mpr fun c listed => ?_)
    rcases List.mem_append.mp listed with tag | hex
    · exact tagged c tag
    · obtain ⟨b, -, nibble⟩ := List.mem_flatMap.mp hex
      exact (hexChar_nibbles b).2.2.2 c nibble
  have opens : format.tag.isPrefixOf (sigText format bytes) = true := List.isPrefixOf_iff_prefix.mpr ⟨_, rfl⟩
  simp only [parseSigHeader, visible, Option.bind_eq_bind, Option.bind_some, opens, if_true]
  rw [sigText, List.drop_left, decoded, Option.filter_some, if_pos (by simpa using full)]

theorem isUtf8_of_ascii {text : Bytes} (low : ∀ b ∈ text, b < 128) : isUtf8 text = true := by
  induction text with
  | nil => rfl
  | cons b text ih =>
    obtain ⟨first, rest⟩ := List.forall_mem_cons.mp low
    rw [isUtf8.eq_def]
    simp [first, ih rest]

theorem timestampByte_range (b : UInt8) : isTimestampByte b = true → b < 128 ∧ isVisible b = true :=
  forall_byte (p := fun b => isTimestampByte b = true → b < 128 ∧ isVisible b = true) (by decide +kernel) b.toNat_lt

/-- A request like one that passed, with a timestamp, a signature and a body of its own. -/
def rewritten (endpoint : Endpoint) (request : Request) (t sig body : Bytes) : Request :=
  { request with
    body
    headers := fun name =>
      if name = endpoint.timestampHeader then some t
      else if name = endpoint.sigHeader then some (sigText endpoint.sigFormat sig) else request.headers name }

theorem Shown.rewritten {t sig t' : Bytes} {key : KeyResolution} (shown : Shown endpoint mac request nowSecs t sig key)
    (isOpen : endpoint.Open nowSecs) (inWindow : endpoint.InWindow nowSecs t') {body : Bytes} (low : ∀ b ∈ body, b < 128)
    {mac' : Bytes → Bytes → Bytes} (full : (mac' key.effectiveKey (endpoint.template.canonical t' body)).length = 32) :
    Shown endpoint mac' (endpoint.rewritten request t' (mac' key.effectiveKey (endpoint.template.canonical t' body)) body)
      nowSecs t' (mac' key.effectiveKey (endpoint.template.canonical t' body)) key := by
  have spelled := isSpelling_of_parse inWindow.choose_spec.1
  have visible : toStr t' = some t' :=
    if_pos (List.all_eq_true.mpr fun b listed => (timestampByte_range b (spelled.bytes b listed)).2)
  refine ⟨shown.typed, isUtf8_of_ascii low, ?_, inWindow, ?_, ?_, shown.known, rfl⟩
  · simp [timestamp, Endpoint.rewritten, visible]
  · simp [signature, Endpoint.rewritten, isOpen.stampApart.symm, parseSigHeader_sigText _ full]
  · rw [← shown.keyed]
    unfold resolveKey
    cases named : endpoint.keyIdHeader with
    | none => rfl
    | some header =>
      have apart := isOpen.keyApart
      rw [named] at apart
      have stamp : header ≠ endpoint.timestampHeader := fun same => apart.1 (congrArg some same)
      have sign : header ≠ endpoint.sigHeader := fun same => apart.2 (congrArg some same)
      simp [Endpoint.rewritten, stamp, sign]

/-- The one message is signed twice over, with and without the moved bytes in its body. -/
theorem exists_forged (isOpen : endpoint.Open nowSecs) (slides : endpoint.Slides nowSecs) :
    ∃ message, ∀ mac : Bytes → Bytes → Bytes, (∀ key, (mac key message).length = 32) → ¬ endpoint.BindsBody mac nowSecs := by
  obtain ⟨_, request, _, accepted⟩ := isOpen.passed
  obtain ⟨-, _, _, key, shown⟩ := shown_of_verify accepted
  obtain ⟨t, moved, something, inWindow, extended, absorbs⟩ := slides
  obtain ⟨body, permuted, same⟩ := TemplateParts.canonical_of_absorbs absorbs t
  -- the moved bytes are a timestamp's, so the body they make is text
  have spelled := isSpelling_of_parse extended.choose_spec.1
  have low : ∀ b ∈ body, b < 128 := by
    intro b listed
    have own := permuted.mem_iff.mp listed
    refine (timestampByte_range b (spelled.bytes b ?_)).1
    unfold TemplateParts.extend
    split
    · exact List.mem_append_right _ own
    · exact List.mem_append_left _ own
  refine ⟨endpoint.template.canonical t body, fun mac full binds => ?_⟩
  have sent := shown.rewritten isOpen inWindow low (full _)
  have forged := shown.rewritten isOpen extended (show ∀ b ∈ ([] : Bytes), b < 128 by simp) (same ▸ full _)
  have bodies := (binds _ _ _ _ sent.accepted forged.accepted (by rw [sent.keyed, forged.keyed])
    (by rw [sent.signed, forged.signed, same])).2
  have empty : body = [] := bodies
  subst empty
  exact something permuted.nil_eq.symm

/-- A signature binds the body under every injective MAC if, and for an endpoint that lets anything
    through only if, no bytes slide between the timestamp and the body. Where they do, two bodies
    pass under one signature whatever the MAC. A separator between the holes rules sliding out. -/
theorem timestamped_signature_binds_body (endpoint : Endpoint) (nowSecs : Int) :
    (¬ endpoint.Slides nowSecs → ∀ mac, (∀ key, Function.Injective (mac key)) → endpoint.BindsBody mac nowSecs) ∧
    (endpoint.Open nowSecs →
      ((∀ mac, (∀ key, Function.Injective (mac key)) → endpoint.BindsBody mac nowSecs) ↔ ¬ endpoint.Slides nowSecs) ∧
      (endpoint.Slides nowSecs →
        ∀ mac : Bytes → Bytes → Bytes, (∀ key message, (mac key message).length = 32) → ¬ endpoint.BindsBody mac nowSecs)) ∧
    (endpoint.template.Separates → ¬ endpoint.Slides nowSecs) := by
  have binds (still : ¬ endpoint.Slides nowSecs) (mac) (injective : ∀ key, Function.Injective (mac key)) :
      endpoint.BindsBody mac nowSecs := bindsBody_of_not_slides still injective
  refine ⟨binds, fun isOpen => ⟨⟨fun bound slides => ?_, binds⟩, fun slides mac full => ?_⟩, ?_⟩
  · -- an injective MAC that signs the forged message in 32 bytes
    obtain ⟨message, forged⟩ := exists_forged isOpen slides
    refine forged (fun _ => Equiv.swap message dummyKey) (fun _ => ?_) (bound _ fun _ => Equiv.injective _)
    rw [Equiv.swap_apply_left]
    rfl
  · obtain ⟨message, forged⟩ := exists_forged isOpen slides
    exact forged mac fun key => full key message
  rintro separates ⟨t, moved, something, ⟨value, parsed, -⟩, ⟨other, extended, -⟩, absorbs⟩
  exact something (separates.absorbs_nothing (isSpelling_of_parse parsed).nonempty (isSpelling_of_parse extended) absorbs)

/-- An endpoint under a given template, with one secret and five minutes of skew. -/
def hook (templateText : Bytes) (template : TemplateParts) (resolved : resolveTemplate templateText = some template) :
    Endpoint :=
  { contentType := ascii "text/plain", sigHeader := "x-sig", sigFormat := .hex, timestampHeader := "x-time", templateText
    template, resolved, maxSkewSecs := 300, skewed := by decide, keyIdHeader := none
    keys := [(ascii "k", ascii "secret")], keyed := by simp }

def plainRequest (t sig body : Bytes) : Request :=
  { contentType := some (ascii "Text/Plain; charset=utf-8"), body
    headers := fun name => if name = "x-time" then some t else if name = "x-sig" then some sig else none }

def letters (n : Nat) : Bytes := List.replicate n 97
def letterHex (n : Nat) : Bytes := (List.replicate n (ascii "61")).flatten

/-- A request at second 100 under a dotted template, with the MAC that answers its message. -/
theorem dotted_request_binds_body :
    let endpoint := hook (ascii "\x7bt\x7d.\x7bbody\x7d") ⟨[], ascii ".", [], true⟩ (by decide)
    let sent := plainRequest (ascii "100") (ascii "3130302e" ++ letterHex 28) (letters 28)
    let again : Request := { sent with contentType := some (ascii "text/plain") }
    endpoint.verifyRequest (fun _ message => message) sent 100 = .ok ⟨ascii "k", letters 28⟩ ∧ sent.body = again.body := by
  intro endpoint sent again
  have accepted : endpoint.verifyRequest (fun _ message => message) sent 100 = .ok ⟨ascii "k", letters 28⟩ := by
    decide +kernel
  have repeated : endpoint.verifyRequest (fun _ message => message) again 100 = .ok ⟨ascii "k", letters 28⟩ := by
    decide +kernel
  obtain ⟨binds, -, still⟩ := timestamped_signature_binds_body endpoint 100
  exact ⟨accepted, (binds (still (by decide)) _ (fun _ _ _ same => same) sent again _ _ accepted repeated rfl rfl).2⟩

/-- Without a separator a zero moves from the body into the timestamp under the same signature. -/
theorem unseparated_body_moves :
    let endpoint := hook (ascii "\x7bbody\x7d\x7bt\x7d") ⟨[], [], [], false⟩ (by decide)
    let sig := letterHex 28 ++ ascii "30313030"
    let sent := plainRequest (ascii "100") sig (letters 28 ++ ascii "0")
    let forged := plainRequest (ascii "0100") sig (letters 28)
    endpoint.verifyRequest (fun _ message => message) sent 100 = .ok ⟨ascii "k", letters 28 ++ ascii "0"⟩ ∧
      endpoint.verifyRequest (fun _ message => message) forged 100 = .ok ⟨ascii "k", letters 28⟩ ∧
      endpoint.signature sent = endpoint.signature forged ∧
      (endpoint.resolveKey sent).map KeyResolution.effectiveKey = (endpoint.resolveKey forged).map KeyResolution.effectiveKey ∧
      letters 28 ++ ascii "0" ≠ letters 28 := by
  intro endpoint sig sent forged
  refine ⟨by decide +kernel, by decide +kernel, rfl, rfl, by decide +kernel⟩

end Endpoint

end Brenn.Webhook
