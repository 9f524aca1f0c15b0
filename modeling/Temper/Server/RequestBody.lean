import Mathlib
import Temper.Json

/-!
# Captured request bodies

Every dispatch records the parameters it was called with. Before an entry enters the outbox the
values under secret-named keys are replaced, at any depth, and the result is bounded: a body whose
text is too long becomes an envelope with a preview of that text. Escaping can make the rendered
preview longer than the text it shows, so the preview shrinks until the envelope fits.
-/

namespace Temper.Server.RequestBody

open Json Json.Value

def redactedPlaceholder : String := "[redacted]"

def secretKeyNames : List String :=
  ["accountnumber", "auth", "authorization", "cvc", "cvv", "iban", "pin", "pwd", "routingnumber",
    "securitycode", "ssn"]

def secretKeySuffixes : List String :=
  ["accesskey", "apikey", "cardnumber", "credential", "credentials", "passphrase", "passwd",
    "password", "privatekey", "secret", "secretkey", "sessionkey", "token"]

section Redaction

-- `char::to_lowercase`, which may answer more than one character
variable (toLowercase : Char → List Char)

def normalizeKey (key : String) : List Char :=
  (key.toList.filter (· ∉ ['_', '-', '.', ' '])).flatMap toLowercase

def isSecretKey (key : String) : Bool :=
  let normalized := normalizeKey toLowercase key
  secretKeyNames.any (·.toList == normalized) ||
    secretKeySuffixes.any (·.toList.isSuffixOf normalized)

mutual

def redactSecrets : Value → Value
  | .object map => .object (redactObject map)
  | .array items => .array (redactItems items)
  | other => other

def redactItems : List Value → List Value
  | [] => []
  | item :: items => redactSecrets item :: redactItems items

/-- The keys stay what they were, so collecting the members keeps each in its place. -/
def redactObject : Members → Members
  | [] => []
  | (key, value) :: map =>
    (if isSecretKey toLowercase key then (key, .string redactedPlaceholder)
      else (key, redactSecrets value)) :: redactObject map

end

end Redaction

/-! ### The bound -/

def trajectoryRequestBodyMaxBytes : Nat := 4096

/-- `text[..n]`, which is missing when `n` is not at a character boundary. -/
def sliceTo : List Char → Nat → Option (List Char)
  | _, 0 => some []
  | [], _ + 1 => none
  | c :: text, n + 1 =>
    if c.utf8Size ≤ n + 1 then (sliceTo text (n + 1 - c.utf8Size)).map (c :: ·) else none

def isCharBoundary (text : String) (n : Nat) : Bool := (sliceTo text.toList n).isSome

/-- The inner loop: step back to a character boundary. -/
def floorCharBoundary (text : String) : Nat → Nat
  | 0 => 0
  | n + 1 => if isCharBoundary text (n + 1) then n + 1 else floorCharBoundary text n

/-- The envelope of an oversized body. Its length is a 64-bit number. -/
def envelope (originalBytes : Nat) (preview : List Char) : Value :=
  .object [("_truncated", .bool true),
    ("_original_bytes", .number (.posInt (originalBytes % 2 ^ 64))),
    ("_preview", .string (String.ofList preview))]

lemma floorCharBoundary_le (text : String) (n : Nat) : floorCharBoundary text n ≤ n := by
  induction n with
  | zero => exact le_rfl
  | succ n ih =>
    unfold floorCharBoundary
    split
    · exact le_rfl
    · exact ih.trans (Nat.le_succ n)

/-- The outer loop; a result is missing where the slice would panic. -/
def shrinkPreview (serialized : String) (previewLen : Nat) : Option Value :=
  let n := floorCharBoundary serialized previewLen
  match sliceTo serialized.toList n with
  | none => none
  | some preview =>
    let envelope := envelope serialized.utf8ByteSize preview
    let renderedLen := envelope.toText.utf8ByteSize
    if renderedLen ≤ trajectoryRequestBodyMaxBytes ∨ n = 0 then some envelope
    else shrinkPreview serialized (n - max (renderedLen - trajectoryRequestBodyMaxBytes) 1)
termination_by previewLen
decreasing_by
  have hle := floorCharBoundary_le serialized previewLen
  omega

def truncatedRequestBodyValue (serialized : String) : Option Value :=
  shrinkPreview serialized trajectoryRequestBodyMaxBytes

def boundedRequestBody (value : Value) : Option Value :=
  if value.toText.utf8ByteSize > trajectoryRequestBodyMaxBytes then
    truncatedRequestBodyValue value.toText
  else some value

/-- The column of a stored row: missing without a body, and the text otherwise. -/
def trajectoryRequestBodyJson (requestBody : Option Value) : Option String :=
  requestBody.bind fun body =>
    if body.toText.utf8ByteSize ≤ trajectoryRequestBodyMaxBytes then some body.toText
    else (truncatedRequestBodyValue body.toText).map Value.toText

/-- What `enqueue_trajectory_entry` does to the body of an entry. -/
def capturedBody (toLowercase : Char → List Char) (body : Value) : Option Value :=
  boundedRequestBody (redactSecrets toLowercase body)

/-! ### Bodies that differ in secrets -/

section Secrets

variable (toLowercase : Char → List Char)

mutual

/-- Two bodies that are equal except for the values under secret keys. -/
inductive SameButSecrets : Value → Value → Prop
  | null : SameButSecrets .null .null
  | bool (b : Bool) : SameButSecrets (.bool b) (.bool b)
  | number (n : Number) : SameButSecrets (.number n) (.number n)
  | string (s : String) : SameButSecrets (.string s) (.string s)
  | array {vs ws : List Value} : SameItems vs ws → SameButSecrets (.array vs) (.array ws)
  | object {m m' : Members} : SameMembers m m' → SameButSecrets (.object m) (.object m')

inductive SameItems : List Value → List Value → Prop
  | nil : SameItems [] []
  | cons {v w : Value} {vs ws : List Value} :
      SameButSecrets v w → SameItems vs ws → SameItems (v :: vs) (w :: ws)

inductive SameMembers : Members → Members → Prop
  | nil : SameMembers [] []
  | secret {key : String} (v w : Value) {m m' : Members} :
      isSecretKey toLowercase key → SameMembers m m' → SameMembers ((key, v) :: m) ((key, w) :: m')
  | cons {key : String} {v w : Value} {m m' : Members} :
      SameButSecrets v w → SameMembers m m' → SameMembers ((key, v) :: m) ((key, w) :: m')

end

variable {toLowercase}

mutual

lemma SameButSecrets.redactSecrets_eq {v w : Value} :
    SameButSecrets toLowercase v w → redactSecrets toLowercase v = redactSecrets toLowercase w
  | .null => rfl
  | .bool _ => rfl
  | .number _ => rfl
  | .string _ => rfl
  | .array h => by rw [redactSecrets, redactSecrets, h.redactItems_eq]
  | .object h => by rw [redactSecrets, redactSecrets, h.redactObject_eq]

lemma SameItems.redactItems_eq {vs ws : List Value} :
    SameItems toLowercase vs ws → redactItems toLowercase vs = redactItems toLowercase ws
  | .nil => rfl
  | .cons h hs => by rw [redactItems, redactItems, h.redactSecrets_eq, hs.redactItems_eq]

lemma SameMembers.redactObject_eq {m m' : Members} :
    SameMembers toLowercase m m' → redactObject toLowercase m = redactObject toLowercase m'
  | .nil => rfl
  | .secret _ _ hsecret hs => by
    simp only [redactObject, hsecret, if_true, hs.redactObject_eq]
  | .cons h hs => by
    simp only [redactObject, h.redactSecrets_eq, hs.redactObject_eq]

end

end Secrets

/-! ### Bodies that fit -/

lemma sliceTo_isPrefix {text preview : List Char} {n : Nat} (h : sliceTo text n = some preview) :
    preview <+: text := by
  induction text, n using sliceTo.induct generalizing preview with
  | case1 text =>
    simp only [sliceTo, Option.some.injEq] at h
    subst h
    exact List.nil_prefix
  | case2 n => simp [sliceTo] at h
  | case3 c text n hfits ih =>
    simp only [sliceTo, hfits, if_true, Option.map_eq_some_iff] at h
    obtain ⟨preview', hpreview, rfl⟩ := h
    exact (List.prefix_cons_inj c).mpr (ih hpreview)
  | case4 c text n hfits => simp [sliceTo, hfits] at h

/-- The inner loop ends at a boundary, so the slice does not panic. -/
lemma sliceTo_floorCharBoundary (text : String) (n : Nat) :
    ∃ preview, sliceTo text.toList (floorCharBoundary text n) = some preview := by
  induction n with
  | zero => exact ⟨[], by simp [floorCharBoundary, sliceTo]⟩
  | succ n ih =>
    unfold floorCharBoundary
    split
    · rename_i hboundary
      exact Option.isSome_iff_exists.mp hboundary
    · exact ih

lemma utf8Len_le (text : List Char) : String.utf8Len text ≤ 4 * text.length := by
  induction text with
  | nil => simp
  | cons c text ih =>
    have hsize := c.utf8Size_le_four
    simp only [String.utf8Len_cons, List.length_cons]
    omega

/-- A 64-bit number is printed with at most twenty digits. -/
lemma size_toString_le {n : Nat} (h : n < 2 ^ 64) : (toString n).utf8ByteSize ≤ 80 := by
  have hlen : (Nat.toDigits 10 n).length ≤ 20 := Nat.toDigits_length 10 n 20 (by decide) (by omega)
  have hsize := utf8Len_le (Nat.toDigits 10 n)
  rw [Nat.toString_eq_ofList_toDigits, String.utf8ByteSize_ofList]
  omega

/-- An empty preview always fits. -/
lemma size_envelope_nil (originalBytes : Nat) :
    (envelope originalBytes []).toText.utf8ByteSize ≤ trajectoryRequestBodyMaxBytes := by
  have hbytes := size_toString_le (Nat.mod_lt originalBytes (by decide : 0 < 2 ^ 64))
  have htruncated : quote "_truncated" = "\"_truncated\"" := by decide +kernel
  have horiginal : quote "_original_bytes" = "\"_original_bytes\"" := by decide +kernel
  have hpreview : quote "_preview" = "\"_preview\"" := by decide +kernel
  have hempty : quote (String.ofList []) = "\"\"" := by decide +kernel
  simp only [envelope, toText, memberTexts, String.intercalate_cons_cons,
    String.intercalate_singleton, htruncated, horiginal, hpreview, hempty, Number.toText, if_true,
    String.utf8ByteSize_append]
  change 1 + (12 + 1 + 4 + 1 + (17 + 1 + (toString (originalBytes % 2 ^ 64)).utf8ByteSize + 1 +
    (10 + 1 + 2))) + 1 ≤ 4096
  omega

/-- What the outer loop answers, from wherever it starts. -/
lemma shrinkPreview_spec (serialized : String) (previewLen : Nat) :
    ∃ preview, preview <+: serialized.toList ∧
      shrinkPreview serialized previewLen = some (envelope serialized.utf8ByteSize preview) ∧
      (envelope serialized.utf8ByteSize preview).toText.utf8ByteSize ≤
        trajectoryRequestBodyMaxBytes := by
  induction previewLen using Nat.strong_induction_on with
  | _ previewLen ih =>
    obtain ⟨preview, hslice⟩ := sliceTo_floorCharBoundary serialized previewLen
    unfold shrinkPreview
    simp only [hslice]
    split_ifs with hdone
    · refine ⟨preview, sliceTo_isPrefix hslice, rfl, ?_⟩
      rcases hdone with hfits | hzero
      · exact hfits
      · rw [hzero] at hslice
        simp only [sliceTo, Option.some.injEq] at hslice
        subst hslice
        exact size_envelope_nil _
    · refine ih _ ?_
      have hle := floorCharBoundary_le serialized previewLen
      omega

/-- A value that fits is stored as it is; of another an envelope is, with a preview of its text. -/
def BoundedFrom (redacted stored : Value) : Prop :=
  stored.toText.utf8ByteSize ≤ trajectoryRequestBodyMaxBytes ∧
    if redacted.toText.utf8ByteSize ≤ trajectoryRequestBodyMaxBytes then stored = redacted
    else ∃ preview, preview <+: redacted.toText.toList ∧
      stored = envelope redacted.toText.utf8ByteSize preview

lemma boundedRequestBody_spec (value : Value) :
    ∃ stored, boundedRequestBody value = some stored ∧ BoundedFrom value stored := by
  unfold boundedRequestBody BoundedFrom
  by_cases hfits : value.toText.utf8ByteSize ≤ trajectoryRequestBodyMaxBytes
  · exact ⟨value, if_neg (not_lt.mpr hfits), hfits, by rw [if_pos hfits]⟩
  · obtain ⟨preview, hprefix, hshrink, hsize⟩ :=
      shrinkPreview_spec value.toText trajectoryRequestBodyMaxBytes
    refine ⟨_, ?_, hsize, ?_⟩
    · rw [if_pos (not_le.mp hfits)]
      exact hshrink
    · rw [if_neg hfits]
      exact ⟨preview, hprefix, rfl⟩

lemma trajectoryRequestBodyJson_of_fits {stored : Value}
    (h : stored.toText.utf8ByteSize ≤ trajectoryRequestBodyMaxBytes) :
    trajectoryRequestBodyJson (some stored) = some stored.toText := by
  simp only [trajectoryRequestBodyJson, Option.bind_some, if_pos h]

/-- Captured bodies carry no value of a secret key and stay bounded: bodies that differ in such
values only are captured alike, and every body is captured as a value that fits the column and is
stored there unchanged. -/
theorem capturedBody_noninterferent_bounded (toLowercase : Char → List Char) :
    (∀ body body', SameButSecrets toLowercase body body' →
      capturedBody toLowercase body = capturedBody toLowercase body') ∧
    ∀ body, ∃ stored, capturedBody toLowercase body = some stored ∧
      BoundedFrom (redactSecrets toLowercase body) stored ∧
      trajectoryRequestBodyJson (some stored) = some stored.toText := by
  constructor
  · intro body body' h
    rw [capturedBody, capturedBody, h.redactSecrets_eq]
  · intro body
    obtain ⟨stored, hstored, hbounded⟩ :=
      boundedRequestBody_spec (redactSecrets toLowercase body)
    exact ⟨stored, hstored, hbounded, trajectoryRequestBodyJson_of_fits hbounded.1⟩

/-- A login: the password is nested in an array. -/
def login (password : String) : Value :=
  .object [("accounts", .array [.object [("user", .string "rita"),
    ("API-Token", .string password)]])]

theorem login_captured_alike :
    isSecretKey (fun c => [c.toLower]) "API-Token" ∧
      capturedBody (fun c => [c.toLower]) (login "hunter2") =
        capturedBody (fun c => [c.toLower]) (login "correct horse") := by
  have hsecret : isSecretKey (fun c => [c.toLower]) "API-Token" := by decide +kernel
  refine ⟨hsecret, (capturedBody_noninterferent_bounded _).1 _ _ ?_⟩
  exact .object (.cons (.array (.cons (.object (.cons (.string _) (.secret _ _ hsecret .nil)))
    .nil)) .nil)

end Temper.Server.RequestBody
