import Mathlib
import Temper.Spec.Naming

/-!
# Persistence ids and schema pins

The text under which a journal is stored names a tenant, an entity type and an entity id. The
entity id of a scoped journal ends in a frame with the schema scope and the bundle digest it is
pinned to.
-/

namespace Temper.Runtime

open Spec

/-! ### Persistence ids -/

/-- Who a journal or an index row belongs to. -/
structure EntityCoordinate where
  tenant : String
  entityType : String
  entityId : String
  deriving DecidableEq, Repr

def parsePersistenceIdParts (persistenceId : String) : Except String EntityCoordinate :=
  let emptySegment := "invalid persistence_id (empty segment): " ++ persistenceId
  match splitOnce ':' persistenceId.toList with
  | none => .error ("invalid persistence_id (expected 'tenant:type:id' or 'type:id'): " ++
      persistenceId)
  | some (first, rest) => match splitOnce ':' rest with
    | none =>
      if first = [] ∨ rest = [] then .error emptySegment
      else .ok ⟨"default", String.ofList first, String.ofList rest⟩
    | some (second, third) =>
      if first = [] ∨ second = [] ∨ third = [] then .error emptySegment
      else .ok ⟨String.ofList first, String.ofList second, String.ofList third⟩

/-- `splitn(3, ':')` with every missing part left empty, which is how the append path names the
owner of index rows. -/
def splitCoordinate (persistenceId : String) : EntityCoordinate :=
  match splitOnce ':' persistenceId.toList with
  | none => ⟨persistenceId, "", ""⟩
  | some (first, rest) => match splitOnce ':' rest with
    | none => ⟨String.ofList first, String.ofList rest, ""⟩
    | some (second, third) => ⟨String.ofList first, String.ofList second, String.ofList third⟩

def EntityCoordinate.persistenceId (c : EntityCoordinate) : String :=
  c.tenant ++ ":" ++ c.entityType ++ ":" ++ c.entityId

/-- The coordinates that some persistence id names. -/
def EntityCoordinate.IsEntity (c : EntityCoordinate) : Prop :=
  ∃ persistenceId, parsePersistenceIdParts persistenceId = .ok c

/-- No part of an entity is empty, and its first two parts hold no separator. -/
lemma EntityCoordinate.IsEntity.parts {c : EntityCoordinate} (h : c.IsEntity) :
    (c.tenant ≠ "" ∧ ':' ∉ c.tenant.toList) ∧ (c.entityType ≠ "" ∧ ':' ∉ c.entityType.toList) ∧
      c.entityId ≠ "" := by
  have hne : ∀ {cs : List Char}, cs ≠ [] → String.ofList cs ≠ "" := by
    intro cs hcs heq
    exact hcs (String.ofList_injective heq)
  obtain ⟨persistenceId, hparse⟩ := h
  unfold parsePersistenceIdParts at hparse
  dsimp only at hparse
  split at hparse
  · cases hparse
  · rename_i first rest hfirst
    obtain ⟨-, hfirst⟩ := splitOnce_eq_some hfirst
    split at hparse
    · split_ifs at hparse with hempty
      cases hparse
      rw [not_or] at hempty
      exact ⟨by simp, ⟨hne hempty.1, by simpa using hfirst⟩, hne hempty.2⟩
    · rename_i second third hsecond
      obtain ⟨-, hsecond⟩ := splitOnce_eq_some hsecond
      split_ifs at hparse with hempty
      cases hparse
      rw [not_or, not_or] at hempty
      exact ⟨⟨hne hempty.1, by simpa using hfirst⟩, ⟨hne hempty.2.1, by simpa using hsecond⟩,
        hne hempty.2.2⟩

/-- The persistence id of an entity names it. -/
lemma EntityCoordinate.IsEntity.parse_persistenceId {c : EntityCoordinate} (h : c.IsEntity) :
    parsePersistenceIdParts c.persistenceId = .ok c := by
  obtain ⟨⟨htenant, htenant'⟩, ⟨htype, htype'⟩, hid⟩ := h.parts
  have hlist : c.persistenceId.toList =
      c.tenant.toList ++ ':' :: (c.entityType.toList ++ ':' :: c.entityId.toList) := by
    simp [EntityCoordinate.persistenceId]
  unfold parsePersistenceIdParts
  dsimp only
  rw [hlist, splitOnce_append htenant']
  dsimp only
  rw [splitOnce_append htype']
  dsimp only
  rw [if_neg (by simp [htenant, htype, hid])]
  simp

/-- An entity that the append path names is the one that the id names. -/
lemma parse_of_splitCoordinate {persistenceId : String}
    (h : (splitCoordinate persistenceId).IsEntity) :
    parsePersistenceIdParts persistenceId = .ok (splitCoordinate persistenceId) := by
  obtain ⟨⟨htenant, -⟩, ⟨htype, -⟩, hid⟩ := h.parts
  unfold splitCoordinate at htenant htype hid ⊢
  unfold parsePersistenceIdParts
  rcases hfirst : splitOnce ':' persistenceId.toList with _ | ⟨first, rest⟩
  · simp [hfirst] at htype
  rcases hsecond : splitOnce ':' rest with _ | ⟨second, third⟩
  · simp [hfirst, hsecond] at hid
  simp only [hfirst, hsecond] at htenant htype hid ⊢
  have hne : ∀ {cs : List Char}, String.ofList cs ≠ "" → cs ≠ [] := by
    rintro cs hcs rfl
    exact hcs rfl
  rw [if_neg]
  rintro (h | h | h)
  · exact hne htenant h
  · exact hne htype h
  · exact hne hid h

/-! ### Schema pins -/

inductive SchemaScopeKind
  | task
  deriving DecidableEq, Repr

structure SchemaScope where
  kind : SchemaScopeKind
  id : String
  deriving DecidableEq, Repr

structure SchemaExecutionPin where
  scope : SchemaScope
  bundleDigest : String
  deriving DecidableEq, Repr

def isLowerHex (c : Char) : Bool := ('0' ≤ c && c ≤ '9') || ('a' ≤ c && c ≤ 'f')

/-- `sha256:` and 64 lowercase hex digits. -/
def isCanonicalSha256Digest (value : String) : Bool :=
  value.utf8ByteSize = 71 && "sha256:".toList.isPrefixOf value.toList &&
    (value.toList.drop 7).all isLowerHex

/-! ### Hex and UTF-8 -/

def hexDigitChar (n : Nat) : Char := if n < 10 then Char.ofNat (48 + n) else Char.ofNat (87 + n)

def encodeHex (bytes : List Nat) : List Char :=
  bytes.flatMap fun b => [hexDigitChar (b / 16), hexDigitChar (b % 16)]

def decodeHexDigit (c : Char) : Option Nat :=
  if '0' ≤ c && c ≤ '9' then some (c.toNat - 48)
  else if 'a' ≤ c && c ≤ 'f' then some (c.toNat - 87)
  else none

def decodeHex : List Char → Option (List Nat)
  | [] => some []
  | [_] => none
  | high :: low :: rest => do
    let high ← decodeHexDigit high
    let low ← decodeHexDigit low
    let bytes ← decodeHex rest
    pure ((16 * high + low) :: bytes)

def encodeUtf8Char (c : Char) : List Nat :=
  let n := c.toNat
  if n < 0x80 then [n]
  else if n < 0x800 then [0xC0 + n / 64, 0x80 + n % 64]
  else if n < 0x10000 then [0xE0 + n / 4096, 0x80 + n / 64 % 64, 0x80 + n % 64]
  else [0xF0 + n / 262144, 0x80 + n / 4096 % 64, 0x80 + n / 64 % 64, 0x80 + n % 64]

def isContinuation (b : Nat) : Bool := 0x80 ≤ b && b < 0xC0

/-- `String::from_utf8`: shortest forms only, no surrogates, nothing past `U+10FFFF`. -/
def decodeUtf8 : List Nat → Option (List Char)
  | [] => some []
  | a :: rest =>
    if a < 0x80 then (decodeUtf8 rest).map (Char.ofNat a :: ·)
    else if 0xC2 ≤ a && a < 0xE0 then match rest with
      | b :: rest =>
        if isContinuation b then
          (decodeUtf8 rest).map (Char.ofNat (64 * (a - 0xC0) + (b - 0x80)) :: ·)
        else none
      | _ => none
    else if 0xE0 ≤ a && a < 0xF0 then match rest with
      | b :: c :: rest =>
        let n := 4096 * (a - 0xE0) + 64 * (b - 0x80) + (c - 0x80)
        if isContinuation b && isContinuation c && 0x800 ≤ n && !(0xD800 ≤ n && n < 0xE000) then
          (decodeUtf8 rest).map (Char.ofNat n :: ·)
        else none
      | _ => none
    else if 0xF0 ≤ a && a < 0xF5 then match rest with
      | b :: c :: d :: rest =>
        let n := 262144 * (a - 0xF0) + 4096 * (b - 0x80) + 64 * (c - 0x80) + (d - 0x80)
        if isContinuation b && isContinuation c && isContinuation d && 0x10000 ≤ n &&
            n < 0x110000 then
          (decodeUtf8 rest).map (Char.ofNat n :: ·)
        else none
      | _ => none
    else none

/-! ### The frame of a scoped journal -/

def scopedJournalScopeMarker (scope : SchemaScope) : String :=
  let scopeKind := match scope.kind with
    | .task => "task"
  ":schema:" ++ scopeKind ++ ":" ++
    String.ofList (encodeHex (scope.id.toList.flatMap encodeUtf8Char)) ++ ":"

def scopedJournalPinSuffix (pin : SchemaExecutionPin) : String :=
  scopedJournalScopeMarker pin.scope ++ pin.bundleDigest

/-- The durable entity id of an entity under a complete pin. -/
def scopedJournalEntityId (entityId : String) (pin : SchemaExecutionPin) : String :=
  entityId ++ scopedJournalPinSuffix pin

/-- The entity id and the pin of a scoped journal; `none` for an unscoped one. -/
def splitScopedJournalEntityId (value : String) : Option (String × SchemaExecutionPin) := do
  let (rest, digestHex) ← rsplitOnce ':' value.toList
  let (rest, digestAlgorithm) ← rsplitOnce ':' rest
  let (entityMarkerAndKind, scopeIdHex) ← rsplitOnce ':' rest
  let (entityWithMarker, scopeKind) ← rsplitOnce ':' entityMarkerAndKind
  let entityId ← stripSuffix ":schema".toList entityWithMarker
  if entityId = [] ∨ scopeIdHex = [] then none
  let bundleDigest := String.ofList (digestAlgorithm ++ ':' :: digestHex)
  if !isCanonicalSha256Digest bundleDigest then none
  let kind ← if scopeKind = "task".toList then some SchemaScopeKind.task else none
  let scopeId ← (decodeHex scopeIdHex).bind decodeUtf8
  if scopeId = [] then none
  pure (String.ofList entityId, ⟨⟨kind, String.ofList scopeId⟩, bundleDigest⟩)

end Temper.Runtime
