import Mathlib
import Temper.Json
import Temper.Lib.Ancestry

/-!
# Session trees and context compaction

A conversation of an agent is an append-only tree of entries, each with the id of its parent. The
context sent to the model is assembled on the path from a leaf to the root; a compaction entry
stands for everything before it. The walk to the root runs within as many turns as the tree has
entries.
-/

namespace Temper.Agent

open Json Ancestry

inductive EntryType
  | header
  | message
  | compaction
  | steering
deriving DecidableEq, Repr

def EntryType.asStr : EntryType → String
  | header => "header"
  | message => "message"
  | compaction => "compaction"
  | steering => "steering"

structure SessionEntry where
  id : String
  parentId : Option String
  entryType : EntryType
  data : Value
  tokens : Nat

/-- A raw line is kept as the JSON object it prints. -/
structure SessionTree where
  entries : BTreeMap SessionEntry
  order : List String
  rawLines : List Value

/-- `data[key] = value` on an object. -/
def setMember (data : Value) (key : String) (value : Value) : Value :=
  data.mapObject fun members => IndexMap.insert members key value

namespace SessionEntry

def summaryMessage (summary : String) : Value :=
  .object [("role", .string "user"),
    ("content", .string ("[Previous conversation summary]\n" ++ summary))]

/-- The message an entry brings into the context. -/
def message (e : SessionEntry) : Option Value :=
  match e.entryType with
  | .header => none
  | .compaction => ((e.data.get "summary").bind Value.asStr).map summaryMessage
  | .message | .steering => (e.data.get "content").map fun content =>
    .object [("role", .string (((e.data.get "role").bind Value.asStr).getD "user")),
      ("content", content)]

end SessionEntry

namespace SessionTree

def new (sessionId : String) : SessionTree :=
  let id := "h-" ++ sessionId
  let header := .object [("id", .string id), ("parentId", .null), ("type", .string "header"),
    ("version", .number (.posInt 1)), ("created", .string ""), ("tokens", .number (.posInt 0))]
  { entries := (∅ : BTreeMap SessionEntry).insert id ⟨id, none, .header, header, 0⟩
    order := [id]
    rawLines := [header] }

/-! ### Walks to the root -/

/-- The entries from `leafId` up to the root. -/
def ancestors (t : SessionTree) (leafId : String) : Option (List SessionEntry) :=
  climb (t.entries[·]?) SessionEntry.parentId t.order.length (some leafId)

/-- One turn of the loop over the path, from the root to the leaf. -/
def assemble (messages : List Value) (e : SessionEntry) : List Value :=
  match e.entryType with
  | .header => messages
  | .compaction => e.message.toList
  | .message | .steering => messages ++ e.message.toList

def buildContext (t : SessionTree) (leafId : String) : Option (List Value) :=
  (t.ancestors leafId).map fun chain => chain.reverse.foldl assemble []

/-- The tokens of the entries from a leaf up to the first compaction, which is still counted. -/
def tokensToCompaction : Nat → List SessionEntry → Nat
  | total, [] => total
  | total, e :: es => if e.entryType = .compaction then total + e.tokens
    else tokensToCompaction (total + e.tokens) es

def estimateTokens (t : SessionTree) (leafId : String) : Option Nat :=
  (t.ancestors leafId).map (tokensToCompaction 0)

/-- The first entry, from the leaf up, at which `keepRecentTokens` are reached. -/
def cutPoint (keepRecentTokens : Nat) : Nat → List SessionEntry → Option String
  | _, [] => none
  | accumulated, e :: es =>
    if keepRecentTokens ≤ accumulated + e.tokens then some e.id
    else cutPoint keepRecentTokens (accumulated + e.tokens) es

def findCutPoint (t : SessionTree) (leafId : String) (keepRecentTokens : Nat) : Option String :=
  (t.ancestors leafId).bind (cutPoint keepRecentTokens 0)

/-! ### Appending -/

def entryData (id : String) (parentId : Option String) (entryType : EntryType)
    (role : Option String) (content : Option Value) (tokens : Nat) (extraFields : Option Value) :
    Value :=
  let data := Value.object [("id", .string id),
    ("parentId", (parentId.map Value.string).getD .null),
    ("type", .string entryType.asStr), ("tokens", .number (.posInt tokens))]
  let data := match role with
    | some role => setMember data "role" (.string role)
    | none => data
  let data := match content with
    | some content => setMember data "content" content
    | none => data
  match extraFields.bind Value.asObject with
  | some extra => extra.foldl (fun data member => setMember data member.1 member.2) data
  | none => data

/-- The tree with the entry, and its line. -/
def appendEntry (t : SessionTree) (id : String) (parentId : Option String) (entryType : EntryType)
    (role : Option String) (content : Option Value) (tokens : Nat) (extraFields : Option Value) :
    SessionTree × Value :=
  let data := entryData id parentId entryType role content tokens extraFields
  ({ entries := t.entries.insert id ⟨id, parentId, entryType, data, tokens⟩
     order := t.order ++ [id]
     rawLines := t.rawLines ++ [data] }, data)

/-- The id the tree hands out for an entry of its own naming. -/
def nextId (t : SessionTree) (tag : String) : String := tag ++ toString t.order.length

def appendUserMessage (t : SessionTree) (parentId content : String) (tokens : Nat) :
    SessionTree × String × Value :=
  let id := t.nextId "u-"
  let (t, line) := t.appendEntry id (some parentId) .message (some "user")
    (some (.string content)) tokens none
  (t, id, line)

def appendAssistantMessage (t : SessionTree) (parentId : String) (content : Value)
    (tokens : Nat) : SessionTree × String × Value :=
  let id := t.nextId "a-"
  let (t, line) := t.appendEntry id (some parentId) .message (some "assistant")
    (some content) tokens none
  (t, id, line)

def appendToolResults (t : SessionTree) (parentId : String) (toolResults : Value)
    (tokens : Nat) : SessionTree × String × Value :=
  let id := t.nextId "t-"
  let (t, line) := t.appendEntry id (some parentId) .message (some "user")
    (some toolResults) tokens none
  (t, id, line)

def appendCompaction (t : SessionTree) (parentId summary firstKept : String) :
    SessionTree × String × Value :=
  let id := t.nextId "c-"
  let extra := .object [("summary", .string summary), ("first_kept", .string firstKept)]
  let (t, line) := t.appendEntry id (some parentId) .compaction none none 0 (some extra)
  (t, id, line)

def appendSteeringMessage (t : SessionTree) (parentId content : String) (tokens : Nat) :
    SessionTree × String × Value :=
  let id := t.nextId "s-"
  let (t, line) := t.appendEntry id (some parentId) .steering (some "user")
    (some (.string content)) tokens none
  (t, id, line)

/-! ### Trees that are built by appending -/

/-- The tags of the ids that the tree hands out itself. -/
def tags : List String := ["u-", "a-", "t-", "c-", "s-"]

/-- A call of one of the append functions. -/
inductive AppendCall
  | entry (id : String) (parentId : Option String) (entryType : EntryType)
      (role : Option String) (content : Option Value) (tokens : Nat) (extraFields : Option Value)
  | userMessage (parentId content : String) (tokens : Nat)
  | assistantMessage (parentId : String) (content : Value) (tokens : Nat)
  | toolResults (parentId : String) (toolResults : Value) (tokens : Nat)
  | compaction (parentId summary firstKept : String)
  | steeringMessage (parentId content : String) (tokens : Nat)

/-- The parent exists; an id chosen by the caller is free and not one the tree hands out. -/
def AppendCall.Allowed (t : SessionTree) : AppendCall → Prop
  | entry id parentId .. => (∀ p, parentId = some p → p ∈ t.entries) ∧ id ∉ t.entries ∧
    ∀ tag ∈ tags, ∀ n : Nat, id ≠ tag ++ toString n
  | userMessage parentId .. | assistantMessage parentId .. | toolResults parentId ..
  | compaction parentId .. | steeringMessage parentId .. => parentId ∈ t.entries

def append (t : SessionTree) : AppendCall → SessionTree
  | .entry id parentId entryType role content tokens extraFields =>
    (t.appendEntry id parentId entryType role content tokens extraFields).1
  | .userMessage parentId content tokens => (t.appendUserMessage parentId content tokens).1
  | .assistantMessage parentId content tokens =>
    (t.appendAssistantMessage parentId content tokens).1
  | .toolResults parentId toolResults tokens =>
    (t.appendToolResults parentId toolResults tokens).1
  | .compaction parentId summary firstKept => (t.appendCompaction parentId summary firstKept).1
  | .steeringMessage parentId content tokens =>
    (t.appendSteeringMessage parentId content tokens).1

/-- The trees made by `new` and append calls with existing parents. -/
inductive Built : SessionTree → Prop
  | new (sessionId : String) : Built (new sessionId)
  | append {t : SessionTree} (call : AppendCall) (h : Built t) (hcall : call.Allowed t) :
      Built (t.append call)

/-- `es` are the entries from `id` up to a root. -/
abbrev Lineage (t : SessionTree) (id : String) (es : List SessionEntry) : Prop :=
  Line (t.entries[·]?) SessionEntry.parentId (some id) es

/-- Every entry stands under its id and has a way to the root, and the ids handed out so far are
numbered below the length of the tree. -/
structure Grown (t : SessionTree) : Prop where
  ids : ∀ (id : String) e, t.entries[id]? = some e → e.id = id
  lineages : ∀ id ∈ t.entries, ∃ es, t.Lineage id es ∧ es.length ≤ t.order.length
  numbers : ∀ tag ∈ tags, ∀ n : Nat, tag ++ toString n ∈ t.entries → n < t.order.length

lemma length_of_mem_tags {tag : String} (h : tag ∈ tags) : tag.toList.length = 2 := by
  simp only [tags, List.mem_cons, List.not_mem_nil, or_false] at h
  rcases h with rfl | rfl | rfl | rfl | rfl <;> rfl

lemma eq_of_tagged {tag tag' s s' : String} (htag : tag.toList.length = 2)
    (htag' : tag'.toList.length = 2) (h : tag ++ s = tag' ++ s') : tag = tag' ∧ s = s' := by
  have hlists : tag.toList ++ s.toList = tag'.toList ++ s'.toList := by
    rw [← String.toList_append, ← String.toList_append, h]
  obtain ⟨hl, hr⟩ := List.append_inj hlists (by rw [htag, htag'])
  exact ⟨String.toList_injective hl, String.toList_injective hr⟩

lemma Grown.nextId_not_mem {t : SessionTree} (h : t.Grown) {tag : String} (htag : tag ∈ tags) :
    t.nextId tag ∉ t.entries := by
  intro hmem
  exact absurd (h.numbers tag htag _ hmem) (lt_irrefl _)

lemma grown_new (sessionId : String) : (new sessionId).Grown where
  ids := by
    intro id e he
    simp only [new, Std.ExtTreeMap.getElem?_insert] at he
    split at he
    · rename_i hid
      cases he
      simpa using hid
    · simp at he
  lineages := by
    intro id hid
    have hid' : "h-" ++ sessionId = id := by simpa [new] using hid
    subst hid'
    have hfind : ∃ e : SessionEntry, (new sessionId).entries["h-" ++ sessionId]? = some e ∧
        e.parentId = none := by
      simp [new]
    obtain ⟨e, hfind, hparent⟩ := hfind
    exact ⟨[e], .entry hfind (hparent ▸ .root), le_rfl⟩
  numbers := by
    intro tag htag n hmem
    have hid : "h-" ++ sessionId = tag ++ toString n := by simpa [new] using hmem
    have heq := (eq_of_tagged rfl (length_of_mem_tags htag) hid).1
    subst heq
    simp [tags] at htag

section Append

variable {t : SessionTree} {id : String} {parentId : Option String} {entryType : EntryType}
  {role : Option String} {content : Option Value} {tokens : Nat} {extraFields : Option Value}

/-- An entry at a free id leaves the other entries where they are. -/
lemma getElem?_appendEntry_of_some (hfresh : id ∉ t.entries) {k : String} {e : SessionEntry}
    (he : t.entries[k]? = some e) :
    (t.appendEntry id parentId entryType role content tokens extraFields).1.entries[k]? =
      some e := by
  have hk : k ∈ t.entries := by
    rw [Std.ExtTreeMap.mem_iff_isSome_getElem?, he]
    rfl
  have hne : id ≠ k := fun h => hfresh (h ▸ hk)
  simp [appendEntry, Std.ExtTreeMap.getElem?_insert, hne, he]

lemma getElem?_appendEntry_self :
    (t.appendEntry id parentId entryType role content tokens extraFields).1.entries[id]? =
      some ⟨id, parentId, entryType,
        entryData id parentId entryType role content tokens extraFields, tokens⟩ := by
  simp [appendEntry]

/-- The lineage of a new entry is that of its parent below it. -/
lemma lineage_appendEntry (hfresh : id ∉ t.entries)
    {p : String} {es : List SessionEntry} (hes : t.Lineage p es) :
    (t.appendEntry id (some p) entryType role content tokens extraFields).1.Lineage id
      (⟨id, some p, entryType, entryData id (some p) entryType role content tokens extraFields,
        tokens⟩ :: es) := by
  refine .entry getElem?_appendEntry_self ?_
  exact hes.of_le fun k e he => getElem?_appendEntry_of_some hfresh he

lemma Grown.appendEntry (h : t.Grown) (hfresh : id ∉ t.entries)
    (hparent : ∀ p, parentId = some p → p ∈ t.entries)
    (hnumber : ∀ tag ∈ tags, ∀ n : Nat, id = tag ++ toString n → n ≤ t.order.length) :
    (t.appendEntry id parentId entryType role content tokens extraFields).1.Grown where
  ids := by
    intro k e he
    by_cases hk : id = k
    · subst hk
      rw [getElem?_appendEntry_self] at he
      cases he
      rfl
    · simp only [SessionTree.appendEntry, Std.ExtTreeMap.getElem?_insert] at he
      rw [if_neg (by simpa using hk)] at he
      exact h.ids k e he
  lineages := by
    intro k hk
    by_cases hid : id = k
    · subst hid
      cases parentId with
      | none =>
        refine ⟨[_], .entry getElem?_appendEntry_self .root, ?_⟩
        simp [SessionTree.appendEntry]
      | some p =>
        obtain ⟨es, hes, hlen⟩ := h.lineages p (hparent p rfl)
        refine ⟨_, lineage_appendEntry hfresh hes, ?_⟩
        simpa [SessionTree.appendEntry] using hlen
    · have hk' : k ∈ t.entries := by
        simpa [SessionTree.appendEntry, hid] using hk
      obtain ⟨es, hes, hlen⟩ := h.lineages k hk'
      refine ⟨es, hes.of_le fun k e he => getElem?_appendEntry_of_some hfresh he, ?_⟩
      simp only [SessionTree.appendEntry, List.length_append, List.length_singleton]
      omega
  numbers := by
    intro tag htag n hmem
    have hcases : id = tag ++ toString n ∨ tag ++ toString n ∈ t.entries := by
      simpa [SessionTree.appendEntry] using hmem
    simp only [SessionTree.appendEntry, List.length_append, List.length_singleton]
    rcases hcases with hid | hmem
    · exact Nat.lt_succ_of_le (hnumber tag htag n hid)
    · exact Nat.lt_succ_of_lt (h.numbers tag htag n hmem)

/-- An entry under an id the tree hands out itself. -/
lemma Grown.appendEntry_nextId (h : t.Grown) {tag : String} (htag : tag ∈ tags)
    (hparent : ∀ p, parentId = some p → p ∈ t.entries) :
    (t.appendEntry (t.nextId tag) parentId entryType role content tokens extraFields).1.Grown := by
  refine h.appendEntry (h.nextId_not_mem htag) hparent ?_
  intro tag' htag' n hid
  have hn := (eq_of_tagged (length_of_mem_tags htag) (length_of_mem_tags htag') hid).2
  exact (Nat.repr_inj.mp hn).ge

end Append

lemma Grown.append {t : SessionTree} (h : t.Grown) (call : AppendCall) (hcall : call.Allowed t) :
    (t.append call).Grown := by
  cases call with
  | entry id parentId entryType role content tokens extraFields =>
    obtain ⟨hparent, hfresh, htag⟩ := hcall
    exact h.appendEntry hfresh hparent fun tag htags n hid => absurd hid (htag tag htags n)
  | userMessage parentId content tokens =>
    exact h.appendEntry_nextId (by simp [tags]) fun p hp => Option.some.inj hp ▸ hcall
  | assistantMessage parentId content tokens =>
    exact h.appendEntry_nextId (by simp [tags]) fun p hp => Option.some.inj hp ▸ hcall
  | toolResults parentId toolResults tokens =>
    exact h.appendEntry_nextId (by simp [tags]) fun p hp => Option.some.inj hp ▸ hcall
  | compaction parentId summary firstKept =>
    exact h.appendEntry_nextId (by simp [tags]) fun p hp => Option.some.inj hp ▸ hcall
  | steeringMessage parentId content tokens =>
    exact h.appendEntry_nextId (by simp [tags]) fun p hp => Option.some.inj hp ▸ hcall

lemma Built.grown {t : SessionTree} (h : Built t) : t.Grown := by
  induction h with
  | new sessionId => exact grown_new sessionId
  | append call _ hcall ih => exact ih.append call hcall

/-! ### What the context holds -/

/-- The entries from a leaf up to the last compaction, which is among them. -/
def recent : List SessionEntry → List SessionEntry
  | [] => []
  | e :: es => if e.entryType = .compaction then [e] else e :: recent es

/-- The context on a path, given from the leaf up. -/
lemma foldl_assemble (es : List SessionEntry) :
    es.reverse.foldl assemble [] = ((recent es).filterMap SessionEntry.message).reverse := by
  induction es with
  | nil => rfl
  | cons e es ih =>
    rw [List.reverse_cons, List.foldl_append, ih, List.foldl_cons, List.foldl_nil]
    cases htype : e.entryType with
    | header =>
      have hnone : e.message = none := by simp [SessionEntry.message, htype]
      simp [assemble, recent, htype, hnone]
    | compaction => cases hmessage : e.message <;> simp [assemble, recent, htype, hmessage]
    | message => cases hmessage : e.message <;> simp [assemble, recent, htype, hmessage]
    | steering => cases hmessage : e.message <;> simp [assemble, recent, htype, hmessage]

lemma recent_append_of_quiet {after : List SessionEntry} (before : List SessionEntry)
    (h : ∀ e ∈ after, e.entryType ≠ .compaction) :
    recent (after ++ before) = after ++ recent before := by
  induction after with
  | nil => rfl
  | cons e after ih =>
    have hrest := ih fun e' he' => h e' (List.mem_cons_of_mem _ he')
    rw [List.cons_append, recent, if_neg (h e List.mem_cons_self), hrest, List.cons_append]

lemma recent_append_of_compaction {after : List SessionEntry} (before : List SessionEntry)
    (h : ∃ e ∈ after, e.entryType = .compaction) : recent (after ++ before) = recent after := by
  induction after with
  | nil => simp at h
  | cons e after ih =>
    by_cases he : e.entryType = .compaction
    · simp [recent, he]
    · have hrest : ∃ e ∈ after, e.entryType = .compaction := by simpa [he] using h
      rw [List.cons_append, recent, if_neg he, ih hrest, recent, if_neg he]

variable {es : List SessionEntry}

lemma cutPoint_cases {keep : Nat} {accumulated : Nat} {cut : String}
    (h : cutPoint keep accumulated es = some cut) :
    ∃ after e before, es = after ++ e :: before ∧ e.id = cut := by
  induction es generalizing accumulated with
  | nil => simp [cutPoint] at h
  | cons e es ih =>
    rw [cutPoint] at h
    split_ifs at h with hreached
    · exact ⟨[], e, es, rfl, Option.some.inj h⟩
    · obtain ⟨after, e', before, rfl, hid⟩ := ih h
      exact ⟨e :: after, e', before, rfl, hid⟩

lemma buildContext_of_ancestors {t : SessionTree} {id : String} (h : t.ancestors id = some es) :
    t.buildContext id = some ((recent es).filterMap SessionEntry.message).reverse := by
  rw [buildContext, h, Option.map_some, foldl_assemble]

variable {leafId : String}

/-- The cut point lies on the way from the leaf to the root. -/
lemma Grown.lineage_of_findCutPoint {t : SessionTree} (h : t.Grown) {cut : String} {keep : Nat}
    (hcut : t.findCutPoint leafId keep = some cut) :
    ∃ after before, t.Lineage leafId (after ++ before) ∧ t.Lineage cut before ∧
      (after ++ before).length ≤ t.order.length := by
  obtain ⟨es, hes, hpoint⟩ := Option.bind_eq_some_iff.mp hcut
  obtain ⟨after, e, before, rfl, rfl⟩ := cutPoint_cases hpoint
  have hleaf : leafId ∈ t.entries := by
    by_contra hmissing
    have hnone : t.entries[leafId]? = none := by simpa using hmissing
    cases hturns : t.order.length <;> simp [ancestors, hturns, climb, hnone] at hes
  obtain ⟨es, hline, hlen⟩ := h.lineages leafId hleaf
  have heq : es = after ++ e :: before := by
    rw [ancestors, hline.climb_eq hlen] at hes
    exact Option.some.inj hes
  subst heq
  obtain ⟨k, hfind, hrest⟩ := hline.of_append
  rw [h.ids k e hfind]
  exact ⟨after, e :: before, hline, hrest, hlen⟩

/-- The way to the root from a new compaction starts with it. -/
lemma Grown.ancestors_appendCompaction {t : SessionTree} (h : t.Grown) (hline : t.Lineage leafId es)
    (hlen : es.length ≤ t.order.length) (summary cut : String) :
    (t.appendCompaction leafId summary cut).1.ancestors
        (t.appendCompaction leafId summary cut).2.1 =
      some (⟨t.nextId "c-", some leafId, .compaction, (t.appendCompaction leafId summary cut).2.2,
        0⟩ :: es) := by
  have hfresh : t.nextId "c-" ∉ t.entries := h.nextId_not_mem (by simp [tags])
  have hnew : (t.appendCompaction leafId summary cut).1.Lineage (t.nextId "c-")
      (⟨_, _, .compaction, _, 0⟩ :: es) := lineage_appendEntry hfresh hline
  exact hnew.climb_eq (by simpa [appendCompaction, SessionTree.appendEntry] using hlen)

/-- The context right after a compaction is its summary. -/
lemma Grown.buildContext_appendCompaction {t : SessionTree} (h : t.Grown)
    (hline : t.Lineage leafId es) (hlen : es.length ≤ t.order.length) (summary cut : String) :
    (t.appendCompaction leafId summary cut).1.buildContext
      (t.appendCompaction leafId summary cut).2.1 =
        some [SessionEntry.summaryMessage summary] := by
  rw [buildContext_of_ancestors (h.ancestors_appendCompaction hline hlen summary cut)]
  simp [appendCompaction, SessionTree.appendEntry, recent, SessionEntry.message, entryData,
    setMember, Value.asObject, Value.asStr]

/-! ### Compaction -/

/-- After the compaction the context is the summary, followed by the messages that the context of
the leaf had after those of the cut point. -/
def KeepsRest (t : SessionTree) (leafId summary cut : String) : Prop :=
  ∃ summarised rest, t.buildContext cut = some summarised ∧
    t.buildContext leafId = some (summarised ++ rest) ∧
    (t.appendCompaction leafId summary cut).1.buildContext
      (t.appendCompaction leafId summary cut).2.1 =
        some (SessionEntry.summaryMessage summary :: rest)

/-- The entries after the cut point add no message; or an earlier compaction is among them, and
from it on they carry the messages of the entries up to the cut point over again. -/
def QuietAfter (t : SessionTree) (leafId cut : String) : Prop :=
  ∃ after before, t.ancestors leafId = some (after ++ before) ∧ t.ancestors cut = some before ∧
    ((∀ e ∈ after, e.entryType ≠ .compaction ∧ e.message = none) ∨
      (∃ e ∈ after, e.entryType = .compaction) ∧
        (recent after).filterMap SessionEntry.message =
          (recent before).filterMap SessionEntry.message)

/-- The messages of two paths to the root, one going on where the other ends, are the same
exactly when the part between them is quiet. -/
lemma messages_eq_iff (after before : List SessionEntry) :
    (recent (after ++ before)).filterMap SessionEntry.message =
        (recent before).filterMap SessionEntry.message ↔
      (∀ e ∈ after, e.entryType ≠ .compaction ∧ e.message = none) ∨
        (∃ e ∈ after, e.entryType = .compaction) ∧
          (recent after).filterMap SessionEntry.message =
            (recent before).filterMap SessionEntry.message := by
  by_cases hcompaction : ∃ e ∈ after, e.entryType = .compaction
  · obtain ⟨e, he, htype⟩ := hcompaction
    rw [recent_append_of_compaction before ⟨e, he, htype⟩]
    constructor
    · exact fun heq => .inr ⟨⟨e, he, htype⟩, heq⟩
    · rintro (hquiet | ⟨-, heq⟩)
      · exact absurd htype (hquiet e he).1
      · exact heq
  · have hnone : ∀ e ∈ after, e.entryType ≠ .compaction :=
      fun e he htype => hcompaction ⟨e, he, htype⟩
    rw [recent_append_of_quiet before hnone, List.filterMap_append, List.append_left_eq_self,
      List.filterMap_eq_nil_iff]
    constructor
    · exact fun hquiet => .inl fun e he => ⟨hnone e he, hquiet e he⟩
    · rintro (hquiet | ⟨hsome, -⟩)
      · exact fun e he => (hquiet e he).2
      · exact absurd hsome hcompaction

/-- A compaction keeps the rest of the context exactly when there is nothing to keep. -/
theorem keepsRest_iff_quietAfter {t : SessionTree} (h : Built t) {leafId cut : String}
    {keepRecentTokens : Nat} (hcut : t.findCutPoint leafId keepRecentTokens = some cut)
    (summary : String) : KeepsRest t leafId summary cut ↔ QuietAfter t leafId cut := by
  obtain ⟨after, before, hleaf, hbefore, hlen⟩ := h.grown.lineage_of_findCutPoint hcut
  have hleafs : t.ancestors leafId = some (after ++ before) := hleaf.climb_eq hlen
  have hcuts : t.ancestors cut = some before :=
    hbefore.climb_eq (by simp only [List.length_append] at hlen; omega)
  have hnew := h.grown.buildContext_appendCompaction hleaf hlen summary cut
  rw [KeepsRest, QuietAfter, hnew, buildContext_of_ancestors hleafs,
    buildContext_of_ancestors hcuts, hleafs, hcuts]
  constructor
  · rintro ⟨summarised, rest, hsummarised, hcontext, hrest⟩
    have hnil : rest = [] := by simpa using hrest
    subst hnil
    have heq : (recent (after ++ before)).filterMap SessionEntry.message =
        (recent before).filterMap SessionEntry.message := by
      rw [List.append_nil, ← hsummarised] at hcontext
      exact List.reverse_injective (Option.some.inj hcontext)
    exact ⟨after, before, rfl, rfl, (messages_eq_iff after before).mp heq⟩
  · rintro ⟨after', before', hafter, hbefore, hquiet⟩
    obtain rfl : before = before' := Option.some.inj hbefore
    obtain rfl : after = after' := List.append_cancel_right (Option.some.inj hafter)
    have heq := (messages_eq_iff after before).mpr hquiet
    exact ⟨_, [], rfl, by rw [heq, List.append_nil], rfl⟩

/-- A header, a question and an answer to it. -/
def dialogue : SessionTree :=
  ((new "1").append (.userMessage "h-1" "hello" 10)).append
    (.assistantMessage "u-1" (.string "hi") 5)

lemma dialogue_built : Built dialogue := by
  refine .append _ (.append _ (.new "1") ?_) ?_
  · simp [AppendCall.Allowed, new]
  · change "u-1" ∈ ((new "1").append (.userMessage "h-1" "hello" 10)).entries
    decide +kernel

/-- The answer alone fills the budget, so the cut point is the leaf. -/
theorem keepsRest_of_full_leaf :
    dialogue.findCutPoint "a-2" 5 = some "a-2" ∧ KeepsRest dialogue "a-2" "greetings" "a-2" := by
  have hcut : dialogue.findCutPoint "a-2" 5 = some "a-2" := by decide +kernel
  have hsome : (dialogue.ancestors "a-2").isSome = true := by decide +kernel
  obtain ⟨es, hes⟩ := Option.isSome_iff_exists.mp hsome
  refine ⟨hcut, (keepsRest_iff_quietAfter dialogue_built hcut "greetings").mpr ?_⟩
  exact ⟨[], es, hes, hes, .inl (by simp)⟩

/-- The answer comes after the cut point, and is lost. -/
theorem answer_lost_in_compaction :
    Built dialogue ∧ dialogue.findCutPoint "a-2" 10 = some "u-1" ∧
      ¬ KeepsRest dialogue "a-2" "greetings" "u-1" := by
  refine ⟨dialogue_built, by decide +kernel, ?_⟩
  rintro ⟨summarised, rest, hsummarised, hcontext, hrest⟩
  have hcut : (dialogue.buildContext "u-1").map List.length = some 1 := by decide +kernel
  have hleaf : (dialogue.buildContext "a-2").map List.length = some 2 := by decide +kernel
  have hnew : ((dialogue.appendCompaction "a-2" "greetings" "u-1").1.buildContext
      (dialogue.appendCompaction "a-2" "greetings" "u-1").2.1).map List.length = some 1 := by
    decide +kernel
  rw [hsummarised, Option.map_some, Option.some_inj] at hcut
  rw [hcontext, Option.map_some, Option.some_inj, List.length_append] at hleaf
  rw [hrest, Option.map_some, Option.some_inj, List.length_cons] at hnew
  omega

/-! ### The compactor -/

/-- What a run of the compactor reports. -/
structure CompactionComplete where
  sessionLeafId : String
  contextTokens : Option Nat

/-- The leaf is kept when there is no cut point, or nothing before it. `summarize` stands for the
summary that the language model writes of the messages. -/
def compact (t : SessionTree) (leafId : String) (keepRecentTokens : Nat)
    (summarize : List Value → String) : SessionTree × CompactionComplete :=
  match t.findCutPoint leafId keepRecentTokens with
  | none => (t, ⟨leafId, t.estimateTokens leafId⟩)
  | some cut => match t.buildContext cut with
    | none | some [] => (t, ⟨leafId, t.estimateTokens leafId⟩)
    | some messages =>
      let (t, id, _) := t.appendCompaction leafId (summarize messages) cut
      (t, ⟨id, t.estimateTokens id⟩)

/-- The trees that later append calls make of a tree. -/
inductive Continues (t : SessionTree) : SessionTree → Prop
  | refl : Continues t t
  | append {t' : SessionTree} (call : AppendCall) (h : Continues t t') (hcall : call.Allowed t') :
      Continues t (t'.append call)

/-- Every call adds one entry at an id that was free. -/
lemma Grown.append_keeps {t : SessionTree} (h : t.Grown) (call : AppendCall)
    (hcall : call.Allowed t) : (t.append call).order.length = t.order.length + 1 ∧
      ∀ (k : String) e, t.entries[k]? = some e → (t.append call).entries[k]? = some e := by
  cases call with
  | entry => exact ⟨by simp [SessionTree.append, SessionTree.appendEntry], fun k e he =>
      getElem?_appendEntry_of_some hcall.2.1 he⟩
  | _ => exact ⟨by simp [SessionTree.append, appendUserMessage, appendAssistantMessage,
      appendToolResults, appendCompaction, appendSteeringMessage, SessionTree.appendEntry],
      fun k e he => getElem?_appendEntry_of_some (h.nextId_not_mem (by simp [tags])) he⟩

lemma Continues.keeps {t t' : SessionTree} (ht : t.Grown) (h : Continues t t') :
    t'.Grown ∧ t.order.length ≤ t'.order.length ∧
      ∀ (k : String) e, t.entries[k]? = some e → t'.entries[k]? = some e := by
  induction h with
  | refl => exact ⟨ht, le_rfl, fun _ _ he => he⟩
  | append call _ hcall ih =>
    obtain ⟨hgrown, hlen, hkeep⟩ := ih
    obtain ⟨hone, hnext⟩ := hgrown.append_keeps call hcall
    exact ⟨hgrown.append call hcall, by omega, fun k e he => hnext k e (hkeep k e he)⟩

/-- A run of the compactor is at most one more append. -/
lemma Continues.compact {t t' : SessionTree} (h : Continues t t') (hleaf : leafId ∈ t'.entries)
    (keepRecentTokens : Nat) (summarize : List Value → String) :
    Continues t (t'.compact leafId keepRecentTokens summarize).1 := by
  unfold SessionTree.compact
  split
  · exact h
  · next cut _ =>
    split
    · exact h
    · exact h
    · next messages _ _ => exact h.append (.compaction leafId (summarize messages) cut) hleaf

/-- Whatever is appended later, and wherever the compactor runs, a leaf reads as before. -/
theorem compact_keeps_contexts {t t' : SessionTree} (ht : Built t) (h : Continues t t')
    {leafId : String} (hleaf : leafId ∈ t'.entries) (keepRecentTokens : Nat)
    (summarize : List Value → String) {id : String} (hid : id ∈ t.entries) :
    (t'.compact leafId keepRecentTokens summarize).1.buildContext id = t.buildContext id ∧
    (t'.compact leafId keepRecentTokens summarize).1.estimateTokens id = t.estimateTokens id := by
  obtain ⟨es, hline, hlen⟩ := ht.grown.lineages id hid
  obtain ⟨-, hmore, hkeep⟩ := (h.compact hleaf keepRecentTokens summarize).keeps ht.grown
  have hsame : (t'.compact leafId keepRecentTokens summarize).1.ancestors id = t.ancestors id :=
    ((hline.of_le hkeep).climb_eq (hlen.trans hmore)).trans (hline.climb_eq hlen).symm
  exact ⟨by rw [buildContext, buildContext, hsame], by rw [estimateTokens, estimateTokens, hsame]⟩

theorem dialogue_kept_by_compaction :
    (dialogue.compact "a-2" 5 fun _ => "greetings").1.buildContext "u-1" =
      dialogue.buildContext "u-1" :=
  (compact_keeps_contexts dialogue_built .refl (by decide +kernel) 5 _ (by decide +kernel)).1

end SessionTree

end Temper.Agent
