import Mathlib
import Temper.Spec.Naming

/-!
# I/O automata

The specification data model: state variables, actions with their guards and effects, keys and
state timeouts, the checks the parser makes on a document, and the initial values of state
variables.
-/

namespace Temper.Spec

structure AutomatonMeta where
  name : String
  states : List String
  initial : String
  deriving DecidableEq, Repr

structure StateVar where
  name : String
  varType : String
  entityType : Option String := none
  initial : String
  overflowInlineMaxBytes : Option Nat := none
  overflowTtlSeconds : Option Nat := none
  deriving DecidableEq, Repr

inductive ActionParam
  | named (name : String)
  | typed (name paramType : String) (entityType : Option String) (nullable : Bool)
  deriving DecidableEq, Repr

namespace ActionParam

def name : ActionParam → String
  | named name => name
  | typed name _ _ _ => name

def paramType : ActionParam → String
  | named _ => "string"
  | typed _ paramType _ _ => paramType

def entityType : ActionParam → Option String
  | named _ => none
  | typed _ _ entityType _ => entityType

def nullable : ActionParam → Bool
  | named _ => false
  | typed _ _ _ nullable => nullable

end ActionParam

inductive Guard
  | stateIn (values : List String)
  | minCount (var : String) (min : Nat)
  | maxCount (var : String) (max : Nat)
  | isTrue (var : String)
  | isFalse (var : String)
  | listContains (var value : String)
  | listLengthMin (var : String) (min : Nat)
  | crossEntityState (entityType entityIdSource : String)
      (requiredStatus forbiddenStatus : List String) (required : Bool)
  | referenceEquals (reference param : String)
  deriving DecidableEq, Repr

inductive Effect
  | increment (var : String) (amount : Option String)
  | decrement (var : String) (amount : Option String)
  | setCounterFromParam (var param : String)
  | setBool (var : String) (value : Bool)
  | emit (event : String)
  | listAppend (var : String)
  | listRemoveAt (var : String)
  | trigger (name : String)
  | schedule (action : String) (delaySeconds : Nat)
  | scheduleAt (action field : String)
  | spawn (entityType entityIdSource : String) (initialAction storeIdIn : Option String)
      (copyFields : Option (List String))
  deriving DecidableEq, Repr

structure SubWriteSpec where
  targetEntity : String
  action : String
  deriving DecidableEq, Repr

/-- An action; `fromStates` and `toState` are the source's `from` and `to`. -/
structure Action where
  name : String
  kind : String := "internal"
  fromStates : List String := []
  toState : Option String := none
  guard : List Guard := []
  effect : List Effect := []
  params : List ActionParam := []
  subWrites : List SubWriteSpec := []
  deriving DecidableEq, Repr

structure StateTimeout where
  state : String
  afterSeconds : Nat
  onTimeout : String
  maxOccurrences : Nat := 1
  resetOn : List String := []
  deriving DecidableEq, Repr

structure KeyDecl where
  name : String
  properties : List String
  entityId : Bool := false
  deriving DecidableEq, Repr

structure Automaton where
  automaton : AutomatonMeta
  state : List StateVar := []
  actions : List Action := []
  stateTimeouts : List StateTimeout := []
  keys : List KeyDecl := []
  deriving DecidableEq, Repr

/-! ### Validation of a parsed document -/

/-- `AutomatonParseError::Validation`. -/
structure ParseError where
  message : String
  deriving DecidableEq, Repr

/-- Fail with a message unless the condition holds. -/
def require (ok : Bool) (message : String) : Except ParseError Unit :=
  if ok then .ok () else .error ⟨message⟩

lemma require_eq_ok {ok : Bool} {message : String} :
    require ok message = .ok () ↔ ok = true := by
  cases ok <;> simp [require]

/-- Run a check on every element, stopping at the first failure. -/
def forEach {α : Type} (check : α → Except ParseError Unit) : List α → Except ParseError Unit
  | [] => .ok ()
  | x :: xs => do check x; forEach check xs

lemma forEach_eq_ok {α : Type} {check : α → Except ParseError Unit} {xs : List α} :
    forEach check xs = .ok () ↔ ∀ x ∈ xs, check x = .ok () := by
  induction xs with
  | nil => simp [forEach]
  | cons x xs ih =>
    cases hx : check x with
    | error e => simp [forEach, hx, bind, Except.bind]
    | ok u => simp [forEach, hx, bind, Except.bind, ih]

/-- A check followed by others passes when the first does and the others do. -/
lemma seq_eq_ok {x y : Except ParseError Unit} :
    (do x; y) = .ok () ↔ x = .ok () ∧ y = .ok () := by
  cases x with
  | error e => simp [bind, Except.bind]
  | ok u => simp [bind, Except.bind]

/-- The names seen so far are `seen`; each further name must be non-empty and new. -/
def validateUniqueNamesFrom (kind : String) (seen : List String) :
    List String → Except ParseError Unit
  | [] => .ok ()
  | name :: names => do
    require (trim name != "") (kind ++ " name must not be empty")
    require (!seen.contains name) (kind ++ " '" ++ name ++ "' declared twice")
    validateUniqueNamesFrom kind (name :: seen) names

def validateUniqueNames (kind : String) (names : List String) : Except ParseError Unit :=
  validateUniqueNamesFrom kind [] names

lemma validateUniqueNamesFrom_ok {kind : String} {seen names : List String}
    (h : validateUniqueNamesFrom kind seen names = .ok ()) :
    names.Nodup ∧ (∀ name ∈ names, name ∉ seen) ∧ ∀ name ∈ names, trim name ≠ "" := by
  induction names generalizing seen with
  | nil => simp
  | cons name names ih =>
    simp only [validateUniqueNamesFrom, seq_eq_ok, require_eq_ok, bne_iff_ne, ne_eq,
      Bool.not_eq_true', List.contains_eq_mem, decide_eq_false_iff_not] at h
    obtain ⟨hne, hnew, hrest⟩ := h
    obtain ⟨hnodup, hseen, htrim⟩ := ih hrest
    refine ⟨?_, ?_, ?_⟩
    · exact List.nodup_cons.mpr ⟨fun hmem => hseen name hmem (by simp), hnodup⟩
    · intro n hn
      rcases List.mem_cons.mp hn with rfl | hn
      · exact hnew
      · exact fun hmem => hseen n hn (List.mem_cons_of_mem _ hmem)
    · intro n hn
      rcases List.mem_cons.mp hn with rfl | hn
      · exact hne
      · exact htrim n hn

lemma validateUniqueNames_nodup {kind : String} {names : List String}
    (h : validateUniqueNames kind names = .ok ()) : names.Nodup :=
  (validateUniqueNamesFrom_ok h).1

def maxReferenceTargetsPerWrite : Nat := 16

section References

variable [Host]

/-- The typed-reference state variables: canonical name, declared name and target type. -/
def stateRefs (a : Automaton) : List (String × String × String) :=
  a.state.filterMap fun s =>
    if s.varType = "ref" then s.entityType.map fun target => (toSnakeCase s.name, s.name, target)
    else none

/-- The typed-reference parameters of an action, as for `stateRefs`. -/
def paramRefs (action : Action) : List (String × String × String) :=
  action.params.filterMap fun p =>
    if p.paramType = "ref" then p.entityType.map fun target => (toSnakeCase p.name, p.name, target)
    else none

def validateStateReference (seen : List (String × String × String)) (s : StateVar) :
    Except ParseError Unit :=
  if s.varType = "ref" then do
    require (s.entityType.any fun target => trim target != "")
      ("typed reference state variable '" ++ s.name ++ "' must declare entity_type")
    match seen.find? fun r => r.1 = toSnakeCase s.name with
    | some (_, existing, _) => .error ⟨"typed reference state variables '" ++ existing ++
        "' and '" ++ s.name ++ "' are alias-equivalent"⟩
    | none => .ok ()
  else require s.entityType.isNone
    ("state variable '" ++ s.name ++ "' declares entity_type but type is '" ++ s.varType ++ "'")

def validateParamReference (refs : List (String × String × String)) (action : Action)
    (seen : List (String × String × String)) (p : ActionParam) : Except ParseError Unit := do
  let path := action.name ++ "." ++ p.name
  let stateRef := refs.find? fun r => r.1 = toSnakeCase p.name
  require (stateRef.isNone || p.paramType = "ref")
    ("action parameter '" ++ path ++ "' projects onto typed reference '" ++
      (stateRef.map (·.2.2)).getD "" ++ "' but has type '" ++ p.paramType ++ "'")
  if p.paramType = "ref" then
    require (p.entityType.any fun target => trim target != "")
      ("typed reference parameter '" ++ path ++ "' must declare entity_type")
    match seen.find? fun r => r.1 = toSnakeCase p.name with
    | some (_, existing, _) => .error ⟨"action parameters '" ++ action.name ++ "." ++ existing ++
        "' and '" ++ path ++ "' are alias-equivalent"⟩
    | none => .ok ()
    require (stateRef.all fun r => some r.2.2 = p.entityType)
      ("typed reference parameter '" ++ path ++ "' targets '" ++ p.entityType.getD "" ++
        "' but state reference targets '" ++ (stateRef.map (·.2.2)).getD "" ++ "'")
  else
    require p.entityType.isNone
      ("action parameter '" ++ path ++ "' declares entity_type but type is '" ++
        p.paramType ++ "'")

/-- Run a check on every element with the elements before it at hand. -/
def forEachSeen {α : Type} (check : List α → α → Except ParseError Unit) (seen : List α) :
    List α → Except ParseError Unit
  | [] => .ok ()
  | x :: xs => do check seen x; forEachSeen check (seen ++ [x]) xs

def validateReferenceGuard (refs params : List (String × String × String)) (action : String) :
    Guard → Except ParseError Unit
  | .referenceEquals reference param =>
    match refs.find? fun r => r.1 = toSnakeCase reference with
    | none => .error ⟨"reference_equals on action '" ++ action ++
        "' names non-reference state variable '" ++ reference ++ "'"⟩
    | some (_, _, referenceTarget) =>
      match params.find? fun r => r.1 = toSnakeCase param with
      | none => .error ⟨"reference_equals on action '" ++ action ++
          "' names non-reference parameter '" ++ param ++ "'"⟩
      | some (_, _, paramTarget) => require (referenceTarget = paramTarget)
          ("reference_equals on action '" ++ action ++ "' compares '" ++ reference ++ "' (" ++
            referenceTarget ++ ") with '" ++ param ++ "' (" ++ paramTarget ++ ")")
  | _ => .ok ()

def validateActionReferences (refs : List (String × String × String)) (action : Action) :
    Except ParseError Unit := do
  forEachSeen (fun seen p => validateParamReference refs action (paramRefs { action with
    params := seen }) p) [] action.params
  forEach (validateReferenceGuard refs (paramRefs action) action.name) action.guard
  let observed := refs.length +
    ((paramRefs action).filter fun r => !refs.any fun r' => r'.1 = r.1).length
  require (observed ≤ maxReferenceTargetsPerWrite)
    ("action '" ++ action.name ++ "' may observe " ++ toString observed ++
      " typed references, exceeding the per-write budget of " ++
      toString maxReferenceTargetsPerWrite)

def validateIdentityKey (refs : List (String × String × String)) (key : KeyDecl) :
    Except ParseError Unit := do
  require (!key.properties.isEmpty)
    ("identity key '" ++ key.name ++ "' must declare at least one property")
  forEach (fun property => require (refs.any fun r => r.1 = toSnakeCase property)
    ("identity key '" ++ key.name ++ "' property '" ++ property ++
      "' must be an immutable typed reference")) key.properties

def validateSpawnStore (refs : List (String × String × String)) (action : Action) :
    Effect → Except ParseError Unit
  | .spawn _ _ _ (some field) _ => require (!refs.any fun r => r.1 = toSnakeCase field)
      ("action '" ++ action.name ++
        "' asynchronous spawn cannot store into typed reference '" ++ field ++ "'")
  | _ => .ok ()

def validateReferenceDeclarations (a : Automaton) : Except ParseError Unit := do
  forEachSeen (fun seen s => validateStateReference (stateRefs { a with state := seen }) s) []
    a.state
  let refs := stateRefs a
  forEach (validateActionReferences refs) a.actions
  require (refs.length ≤ maxReferenceTargetsPerWrite)
    ("entity declares " ++ toString refs.length ++
      " typed reference fields, exceeding the per-write budget of " ++
      toString maxReferenceTargetsPerWrite)
  let identityKeys := a.keys.filter (·.entityId)
  require (identityKeys.length ≤ 1) "at most one [[key]] may declare entity_id = true"
  forEach (validateIdentityKey refs) (identityKeys.take 1)
  forEach (fun action => forEach (validateSpawnStore refs action) action.effect) a.actions

end References

def validateActionStates (states : List String) (action : Action) : Except ParseError Unit := do
  forEach (fun s => require (states.contains s)
    ("action '" ++ action.name ++ "' references undeclared from-state '" ++ s ++ "'"))
    action.fromStates
  forEach (fun s => require (states.contains s)
    ("action '" ++ action.name ++ "' references undeclared to-state '" ++ s ++ "'"))
    action.toState.toList

def validateStateTimeout (a : Automaton) (seen : List StateTimeout) (st : StateTimeout) :
    Except ParseError Unit := do
  let actionNames := a.actions.map (·.name)
  require (a.automaton.states.contains st.state)
    ("state_timeout references undeclared state '" ++ st.state ++ "'")
  require (!(seen.map (·.state)).contains st.state)
    ("state_timeout declared twice for state '" ++ st.state ++ "'")
  require (st.afterSeconds != 0)
    ("state_timeout for '" ++ st.state ++ "' must have after_seconds > 0")
  require (st.maxOccurrences != 0)
    ("state_timeout for '" ++ st.state ++ "' must have max_occurrences >= 1")
  require (actionNames.contains st.onTimeout)
    ("state_timeout for '" ++ st.state ++ "' references unknown on_timeout action '" ++
      st.onTimeout ++ "'")
  forEach (fun reset => require (actionNames.contains reset)
    ("state_timeout for '" ++ st.state ++ "' references unknown reset_on action '" ++
      reset ++ "'")) st.resetOn

/-- The parser's checks, in the order it makes them. Declarations that neither the runtime table
nor the verifier's model reads (invariants, liveness, integrations, triggers, …) are left out. -/
def validate [Host] (a : Automaton) : Except ParseError Unit := do
  require (trim a.automaton.name != "") "automaton name must not be empty"
  require (!a.automaton.states.isEmpty) "automaton must declare at least one state"
  validateUniqueNames "automaton state" a.automaton.states
  validateUniqueNames "state variable" (a.state.map (·.name))
  validateUniqueNames "action" (a.actions.map (·.name))
  validateUniqueNames "key" (a.keys.map (·.name))
  forEach (fun action => validateUniqueNames ("parameter on action '" ++ action.name ++ "'")
    (action.params.map (·.name))) a.actions
  require (a.automaton.states.contains a.automaton.initial)
    ("initial state '" ++ a.automaton.initial ++ "' is not in states list")
  forEach (fun (s : StateVar) => require (!isServerDerivedFieldName s.name)
    ("state variable '" ++ s.name ++ "' uses a runtime-owned field name")) a.state
  forEach (fun action => forEach (fun (p : ActionParam) =>
    require (!isServerDerivedFieldName p.name)
      ("action '" ++ action.name ++ "' parameter '" ++ p.name ++
        "' uses a runtime-owned field name")) action.params) a.actions
  forEach (validateActionStates a.automaton.states) a.actions
  validateReferenceDeclarations a
  forEachSeen (validateStateTimeout a) [] a.stateTimeouts

/-- Append the states that are not listed yet. -/
def addStates (states added : List String) : List String :=
  added.foldl (fun states s => if states.contains s then states else states ++ [s]) states

/-- A state timeout enables its action from the timed state. -/
def wireStateTimeoutFromStates (a : Automaton) : Automaton :=
  let timed (action : Action) := (a.stateTimeouts.filter fun st => st.onTimeout = action.name)
  { a with actions := a.actions.map fun action =>
      { action with fromStates := addStates action.fromStates ((timed action).map (·.state)) } }

/-- From a document read off the TOML source to an automaton. -/
def parseAutomaton [Host] (doc : Automaton) : Except ParseError Automaton := do
  validate doc
  pure (wireStateTimeoutFromStates doc)

/-- An automaton the parser accepted. -/
def Parsed [Host] (a : Automaton) : Prop := ∃ doc, parseAutomaton doc = .ok a

section Parsed

variable [Host] {a : Automaton}

lemma parsed_iff : Parsed a ↔ ∃ doc, validate doc = .ok () ∧ wireStateTimeoutFromStates doc = a := by
  refine exists_congr fun doc => ?_
  cases h : validate doc with
  | error e => simp [parseAutomaton, h, bind, Except.bind]
  | ok u => simp [parseAutomaton, h, bind, Except.bind, pure, Except.pure]

omit [Host] in
private lemma ne_empty_of_trim {name : String} (h : trim name ≠ "") : name ≠ "" := by
  rintro rfl
  exact h (by decide)

/-- What the parser's checks say about the names of an accepted automaton. -/
structure WellNamed (a : Automaton) : Prop where
  stateNames : (a.state.map (·.name)).Nodup
  actionNames : (a.actions.map (·.name)).Nodup
  paramNames : ∀ action ∈ a.actions, (action.params.map (·.name)).Nodup
  notServerDerived : ∀ s ∈ a.state, isServerDerivedFieldName s.name = false
  initial_ne : a.automaton.initial ≠ ""
  toState_ne : ∀ action ∈ a.actions, ∀ s, action.toState = some s → s ≠ ""

lemma wellNamed_of_validate {doc : Automaton} (h : validate doc = .ok ()) : WellNamed doc := by
  simp only [validate, seq_eq_ok, forEach_eq_ok, require_eq_ok] at h
  obtain ⟨-, -, hstates, hvars, hactions, -, hparams, hinit, hderived, -, htargets, -⟩ := h
  have hne : ∀ s ∈ doc.automaton.states, s ≠ "" := fun s hs =>
    ne_empty_of_trim ((validateUniqueNamesFrom_ok hstates).2.2 s hs)
  refine ⟨validateUniqueNames_nodup hvars, validateUniqueNames_nodup hactions, ?_, ?_, ?_, ?_⟩
  · exact fun action haction => validateUniqueNames_nodup (hparams action haction)
  · intro s hs
    simpa using hderived s hs
  · exact hne _ (by simpa using hinit)
  · intro action haction s hs
    have htarget := htargets action haction
    simp only [validateActionStates, seq_eq_ok, forEach_eq_ok, require_eq_ok] at htarget
    exact hne s (by simpa using htarget.2 s (by simp [hs]))

/-- Wiring the timeouts only adds from-states, so the names stay as checked. -/
theorem Parsed.wellNamed (h : Parsed a) : WellNamed a := by
  obtain ⟨doc, hvalid, rfl⟩ := parsed_iff.mp h
  have hdoc := wellNamed_of_validate hvalid
  have hmem : ∀ action ∈ (wireStateTimeoutFromStates doc).actions, ∃ action' ∈ doc.actions,
      action.params = action'.params ∧ action.toState = action'.toState := by
    intro action haction
    obtain ⟨action', haction', rfl⟩ := List.mem_map.mp haction
    exact ⟨action', haction', rfl, rfl⟩
  refine ⟨hdoc.stateNames, ?_, ?_, hdoc.notServerDerived, hdoc.initial_ne, ?_⟩
  · have hnames : (wireStateTimeoutFromStates doc).actions.map (·.name) =
        doc.actions.map (·.name) := by
      simp [wireStateTimeoutFromStates, Function.comp_def]
    rw [hnames]
    exact hdoc.actionNames
  · intro action haction
    obtain ⟨action', haction', hparams, -⟩ := hmem action haction
    rw [hparams]
    exact hdoc.paramNames action' haction'
  · intro action haction s hs
    obtain ⟨action', haction', -, hto⟩ := hmem action haction
    exact hdoc.toState_ne action' haction' s (hto ▸ hs)

end Parsed

/-! ### Initial values -/

def parseBoolInitial (raw : String) : Bool :=
  ["true", "1", "yes", "on"].contains (String.ofList ((trim raw).toList.map Char.toLower))

def parseCounterInitialUsize (raw : String) : Nat := (parseUsize (trim raw)).getD 0

/-- Strip the quotes around a list element. -/
def unquote (cs : List Char) : List Char := trimChars (· = '\'') (trimChars (· = '"') cs)

/-- The text between a leading `[` and a trailing `]`. -/
def stripBrackets (cs : List Char) : Option (List Char) :=
  match cs with
  | '[' :: rest => if rest.getLast? = some ']' then some rest.dropLast else none
  | _ => none

def parseListInitial (raw : String) : List String :=
  let trimmed := (trim raw).toList
  if trimmed = [] ∨ trimmed = ['[', ']'] then []
  else match stripBrackets trimmed with
    | some inner =>
      ((((inner.splitOn ',').map (trimChars isWhitespace)).filter (!·.isEmpty)).map unquote |>.filter
        (!·.isEmpty)).map String.ofList
    | none => [String.ofList (unquote trimmed)]

end Temper.Spec
