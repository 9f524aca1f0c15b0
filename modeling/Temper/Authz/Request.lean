import Mathlib
import Temper.Json

/-!
# Authorization requests

What an authorization request hands to Cedar: the identities of principal, action and resource, a
context, and the attributes of the two entities. Attributes of the resource also go into the
context, except under the names that only the credentials of the caller may set. When the resource
is the principal itself, there is one entity with the attributes of both.

Cedar is a library. Its parser of identities and its authorizer are arbitrary functions here; an
entity or a context of plain values can always be built.
-/

namespace Temper.Authz

open Json

/-! ### Callers -/

inductive PrincipalKind
  | customer
  | agent
  | admin
  | system
  deriving DecidableEq, Repr

def PrincipalKind.cedarType : PrincipalKind → String
  | customer => "Customer"
  | agent => "Agent"
  | admin => "Admin"
  | system => "System"

structure Principal where
  id : String
  kind : PrincipalKind
  role : Option String := none
  actingFor : Option String := none
  agentType : Option String := none
  attributes : BTreeMap Value := ∅

structure SecurityContext where
  principal : Principal
  contextAttrs : BTreeMap Value := ∅

/-- The names in a context that only a security context may set. -/
def isCedarAuthorityContextKey (name : String) : Bool :=
  ["sessionId", "agentId", "agentType", "agentTypeVerified", "role", "actingFor"].contains name

/-! ### Cedar -/

inductive Scalar
  | string (s : String)
  | bool (b : Bool)
  | long (n : Int)
  deriving DecidableEq, Repr

inductive CedarValue
  | scalar (value : Scalar)
  | set (items : List Scalar)
  deriving DecidableEq, Repr

def CedarValue.string (s : String) : CedarValue := .scalar (.string s)

structure EntityUid where
  typeName : String
  id : String
  deriving DecidableEq, Repr

structure CedarRequest where
  principal : EntityUid
  action : EntityUid
  resource : EntityUid
  context : BTreeMap CedarValue
  entities : List (EntityUid × BTreeMap CedarValue)

/-- An attribute of an entity, as policies read it. -/
def CedarRequest.attribute (q : CedarRequest) (uid : EntityUid) (key : String) :
    Option CedarValue :=
  (q.entities.lookup uid).bind (·[key]?)

structure CedarResponse where
  allow : Bool
  reason : List String

inductive AuthzDenial
  | invalidPrincipal (message : String)
  | invalidAction (message : String)
  | invalidResource (message : String)
  | noMatchingPermit
  | policyDenied (policyIds : List String)
  deriving DecidableEq, Repr

/-! ### Building a request -/

def toScalar : Value → Option Scalar
  | .string s => some (.string s)
  | .number n => n.asI64.map .long
  | .bool b => some (.bool b)
  | _ => none

/-- The value that `insert_json_as_cedar` inserts, if any. -/
def toCedar : Value → Option CedarValue
  | .array items => some (.set (items.filterMap toScalar))
  | v => (toScalar v).map .scalar

/-- `insert_json_as_cedar` on every attribute. -/
def insertJsonAsCedar (m : BTreeMap CedarValue) (attrs : BTreeMap Value) : BTreeMap CedarValue :=
  m.extend (attrs.filterMap fun _ v => toCedar v)

def insertSome (m : BTreeMap CedarValue) (key : String) (value : Option String) :
    BTreeMap CedarValue :=
  match value with
  | some s => m.insert key (.string s)
  | none => m

def resourceIdFromAttrs (attrs : BTreeMap Value) : String :=
  ((attrs["id"]?.or attrs["Id"]?).bind Value.asStr).getD "unknown"

/-- The context as far as the caller decides it. -/
def callerContext (ctx : SecurityContext) : BTreeMap CedarValue :=
  insertJsonAsCedar
    (insertSome (insertSome ∅ "role" ctx.principal.role) "actingFor" ctx.principal.actingFor)
    ctx.contextAttrs

def requestContext (ctx : SecurityContext) (attrs : BTreeMap Value) : BTreeMap CedarValue :=
  let caller := callerContext ctx
  insertJsonAsCedar caller
    (attrs.filter fun key _ => !isCedarAuthorityContextKey key && !caller.contains key)

def principalAttrs (p : Principal) : BTreeMap CedarValue :=
  let identified := (Std.ExtTreeMap.empty.insert "id" (.string p.id)).insert "accountId"
    (.string p.id)
  insertJsonAsCedar (insertSome (insertSome identified "agent_type" p.agentType) "role" p.role)
    p.attributes

def uidText (typeName id : String) : String := typeName ++ "::\"" ++ id ++ "\""

def principalText (ctx : SecurityContext) : String :=
  uidText ctx.principal.kind.cedarType ctx.principal.id

def resourceText (resourceType : String) (attrs : BTreeMap Value) : String :=
  uidText resourceType (resourceIdFromAttrs attrs)

variable (parseUid : String → Except String EntityUid)

/-- What `evaluate_request` hands to the authorizer. -/
def cedarRequest (ctx : SecurityContext) (action resourceType : String) (attrs : BTreeMap Value) :
    Except AuthzDenial CedarRequest := do
  let principal ← (parseUid (principalText ctx)).mapError .invalidPrincipal
  let actionUid ← (parseUid (uidText "Action" action)).mapError .invalidAction
  let resource ← (parseUid (resourceText resourceType attrs)).mapError .invalidResource
  let ofPrincipal := principalAttrs ctx.principal
  let ofResource := insertJsonAsCedar ∅ attrs
  pure {
    principal := principal
    action := actionUid
    resource := resource
    context := requestContext ctx attrs
    entities :=
      if resource = principal then [(resource, ofPrincipal.extend ofResource)]
      else [(principal, ofPrincipal), (resource, ofResource)] }

/-! ### What resource data can say -/

@[simp] lemma getElem?_insertJsonAsCedar (m : BTreeMap CedarValue) (attrs : BTreeMap Value)
    (key : String) :
    (insertJsonAsCedar m attrs)[key]? = (attrs[key]?.bind toCedar).or m[key]? := by
  rw [insertJsonAsCedar, BTreeMap.getElem?_extend, Std.ExtTreeMap.getElem?_filterMap']

/-- Under a name that is reserved for the caller, the context says what the caller's does. -/
lemma requestContext_authority {ctx : SecurityContext} {attrs : BTreeMap Value} {key : String}
    (h : isCedarAuthorityContextKey key = true) :
    (requestContext ctx attrs)[key]? = (callerContext ctx)[key]? := by
  simp [requestContext, h]

/-- The value that an attribute of the principal is overlaid with by resource data. -/
def overlaid (p : Principal) (attrs : BTreeMap Value) (key : String) : Option CedarValue :=
  (attrs[key]?.bind toCedar).or (principalAttrs p)[key]?

variable {parseUid} {ctx : SecurityContext} {action resourceType : String}
  {attrs attrs' : BTreeMap Value} {q q' : CedarRequest}

lemma cedarRequest_ok (h : cedarRequest parseUid ctx action resourceType attrs = .ok q) :
    parseUid (principalText ctx) = .ok q.principal ∧
      parseUid (resourceText resourceType attrs) = .ok q.resource ∧
      q.context = requestContext ctx attrs ∧
      ∀ key, q.attribute q.principal key =
        if q.resource = q.principal then overlaid ctx.principal attrs key
        else (principalAttrs ctx.principal)[key]? := by
  unfold cedarRequest at h
  cases hp : parseUid (principalText ctx) with
  | error e => simp [hp, Except.mapError, bind, Except.bind] at h
  | ok principal =>
    cases ha : parseUid (uidText "Action" action) with
    | error e => simp [hp, ha, Except.mapError, bind, Except.bind] at h
    | ok actionUid =>
      cases hr : parseUid (resourceText resourceType attrs) with
      | error e => simp [hp, ha, hr, Except.mapError, bind, Except.bind] at h
      | ok resource =>
        simp only [hp, ha, hr, Except.mapError, bind, Except.bind, pure, Except.pure,
          Except.ok.injEq] at h
        subst h
        refine ⟨rfl, rfl, rfl, fun key => ?_⟩
        by_cases heq : resource = principal
        · simp [CedarRequest.attribute, heq, overlaid]
        · simp [CedarRequest.attribute, heq]

/-- Two requests that say the same about the principal: who it is, the attributes it has from the
security context, and what the context says under reserved names. -/
structure SpeakAlike (ctx : SecurityContext) (q q' : CedarRequest) : Prop where
  principal : q.principal = q'.principal
  attributes : ∀ key ∈ principalAttrs ctx.principal,
    q.attribute q.principal key = q'.attribute q'.principal key
  context : ∀ key, isCedarAuthorityContextKey key = true → q.context[key]? = q'.context[key]?

/-- Resource data speaks for the principal exactly when the resource is the principal itself and
the data gives a different value for one of the principal's attributes. -/
theorem resource_data_silent_iff
    (hq : cedarRequest parseUid ctx action resourceType attrs = .ok q)
    (hq' : cedarRequest parseUid ctx action resourceType attrs' = .ok q')
    (hid : resourceIdFromAttrs attrs = resourceIdFromAttrs attrs') :
    SpeakAlike ctx q q' ↔
      parseUid (resourceText resourceType attrs) ≠ parseUid (principalText ctx) ∨
        ∀ key ∈ principalAttrs ctx.principal,
          overlaid ctx.principal attrs key = overlaid ctx.principal attrs' key := by
  obtain ⟨hp, hr, hc, hattr⟩ := cedarRequest_ok hq
  obtain ⟨hp', hr', hc', hattr'⟩ := cedarRequest_ok hq'
  have hprincipal : q.principal = q'.principal := by
    rw [hp] at hp'
    exact Except.ok.inj hp'
  have hresource : q.resource = q'.resource := by
    rw [resourceText, ← hid, ← resourceText, hr] at hr'
    exact Except.ok.inj hr'
  have hcontext : ∀ key, isCedarAuthorityContextKey key = true →
      q.context[key]? = q'.context[key]? := by
    intro key hkey
    rw [hc, hc', requestContext_authority hkey, requestContext_authority hkey]
  have hown : parseUid (resourceText resourceType attrs) ≠ parseUid (principalText ctx) ↔
      q.resource ≠ q.principal := by
    rw [hr, hp, Ne, Except.ok.injEq]
  rw [hown]
  by_cases heq : q.resource = q.principal
  · have heq' : q'.resource = q'.principal := by rw [← hresource, heq, hprincipal]
    constructor
    · intro h
      right
      intro key hkey
      simpa [hattr, hattr', heq, heq'] using h.attributes key hkey
    · rintro (hne | h)
      · exact absurd heq hne
      · refine ⟨hprincipal, fun key hkey => ?_, hcontext⟩
        simpa [hattr, hattr', heq, heq'] using h key hkey
  · have heq' : q'.resource ≠ q'.principal := by rw [← hresource, ← hprincipal]; exact heq
    constructor
    · intro _
      exact .inl heq
    · intro _
      refine ⟨hprincipal, fun key _ => ?_, hcontext⟩
      rw [hattr, hattr', if_neg heq, if_neg heq']

/-! ### An agent that reads its own entity -/

/-- A parser that knows some identities. -/
def tableUid (uids : List EntityUid) (text : String) : Except String EntityUid :=
  match uids.find? fun uid => uidText uid.typeName uid.id = text with
  | some uid => .ok uid
  | none => .error "unexpected token"

def botUids : List EntityUid := [⟨"Agent", "bot-1"⟩, ⟨"Action", "read"⟩, ⟨"Order", "bot-1"⟩]

def botContext : SecurityContext where
  principal := { id := "bot-1", kind := .agent, agentType := some "operator" }

/-- The entity as it is stored, with an account. -/
def botAttrs (account : String) : BTreeMap Value :=
  .ofList [("id", .string "bot-1"), ("accountId", .string account)] compare

def botRequest (resourceType account : String) : Except AuthzDenial CedarRequest :=
  cedarRequest (tableUid botUids) botContext "read" resourceType (botAttrs account)

/-- The account of an order does not speak for the agent that reads it. -/
theorem order_data_is_silent :
    ∃ q q', botRequest "Order" "a-1" = .ok q ∧ botRequest "Order" "a-2" = .ok q' ∧
      SpeakAlike botContext q q' := by
  obtain ⟨q, hq⟩ : ∃ q, botRequest "Order" "a-1" = .ok q := ⟨_, rfl⟩
  obtain ⟨q', hq'⟩ : ∃ q', botRequest "Order" "a-2" = .ok q' := ⟨_, rfl⟩
  refine ⟨q, q', hq, hq', (resource_data_silent_iff hq hq' ?_).mpr (.inl ?_)⟩
  · decide +kernel
  · decide +kernel

/-- The account in the agent's own entity does: it takes the place of the agent's own account. -/
theorem own_entity_data_speaks :
    ∃ q q', botRequest "Agent" "a-1" = .ok q ∧ botRequest "Agent" "a-2" = .ok q' ∧
      resourceIdFromAttrs (botAttrs "a-1") = resourceIdFromAttrs (botAttrs "a-2") ∧
      ¬ SpeakAlike botContext q q' := by
  obtain ⟨q, hq⟩ : ∃ q, botRequest "Agent" "a-1" = .ok q := ⟨_, rfl⟩
  obtain ⟨q', hq'⟩ : ∃ q', botRequest "Agent" "a-2" = .ok q' := ⟨_, rfl⟩
  refine ⟨q, q', hq, hq', by decide +kernel, fun h => ?_⟩
  have haccount : "accountId" ∈ principalAttrs botContext.principal := by decide +kernel
  have hsame := h.attributes "accountId" haccount
  rw [(cedarRequest_ok hq).2.2.2, (cedarRequest_ok hq').2.2.2] at hsame
  cases hq
  cases hq'
  revert hsame
  decide +kernel

end Temper.Authz
