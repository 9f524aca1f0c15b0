import Mathlib

/-!
# Asserted formulas

Formulas over integer and boolean variables, the assertions put to a solver, and a solver that
decides them. A query that is unsatisfiable has no assignment that makes every assertion true.
-/

namespace Smt

mutual

inductive IntExpr
  | const (n : Int)
  | var (name : String)
  | add (a b : IntExpr)
  | sub (a b : IntExpr)
  | ite (c : BoolExpr) (a b : IntExpr)

inductive BoolExpr
  | const (b : Bool)
  | var (name : String)
  | gt (a b : IntExpr)
  | ge (a b : IntExpr)
  | lt (a b : IntExpr)
  | le (a b : IntExpr)
  | eq (a b : IntExpr)
  | not (f : BoolExpr)

end

structure Assignment where
  ints : String → Int
  bools : String → Bool

mutual

def IntExpr.eval (m : Assignment) : IntExpr → Int
  | .const n => n
  | .var name => m.ints name
  | .add a b => a.eval m + b.eval m
  | .sub a b => a.eval m - b.eval m
  | .ite c a b => if c.eval m then a.eval m else b.eval m

def BoolExpr.eval (m : Assignment) : BoolExpr → Bool
  | .const b => b
  | .var name => m.bools name
  | .gt a b => decide (b.eval m < a.eval m)
  | .ge a b => decide (b.eval m ≤ a.eval m)
  | .lt a b => decide (a.eval m < b.eval m)
  | .le a b => decide (a.eval m ≤ b.eval m)
  | .eq a b => decide (a.eval m = b.eval m)
  | .not f => !f.eval m

end

section

variable {m : Assignment} {a b : IntExpr}

@[simp] lemma BoolExpr.eval_gt : (BoolExpr.gt a b).eval m = true ↔ b.eval m < a.eval m := by
  simp only [BoolExpr.eval, decide_eq_true_eq]

@[simp] lemma BoolExpr.eval_ge : (BoolExpr.ge a b).eval m = true ↔ b.eval m ≤ a.eval m := by
  simp only [BoolExpr.eval, decide_eq_true_eq]

@[simp] lemma BoolExpr.eval_le : (BoolExpr.le a b).eval m = true ↔ a.eval m ≤ b.eval m := by
  simp only [BoolExpr.eval, decide_eq_true_eq]

@[simp] lemma BoolExpr.eval_not {f : BoolExpr} :
    (BoolExpr.not f).eval m = true ↔ ¬ f.eval m = true := by
  simp [BoolExpr.eval]

end

inductive SatResult
  | sat
  | unsat
  | unknown
  deriving DecidableEq

def Satisfiable (asserted : List BoolExpr) : Prop :=
  ∃ m : Assignment, ∀ f ∈ asserted, f.eval m = true

/-- A correct decision procedure: it answers `unsat` on the unsatisfiable queries only. -/
structure Solver where
  check : List BoolExpr → SatResult
  unsat_iff : ∀ asserted, check asserted = .unsat ↔ ¬ Satisfiable asserted

open Classical in
/-- The solver that knows. -/
noncomputable def Solver.oracle : Solver where
  check asserted := if Satisfiable asserted then .sat else .unsat
  unsat_iff asserted := by
    split_ifs with h <;> simp [h]

/-- Give one integer variable a value. -/
def Assignment.ofInt (n : Int) : Assignment := ⟨fun _ => n, fun _ => false⟩

/-- Give one boolean variable a value. -/
def Assignment.ofBool (b : Bool) : Assignment := ⟨fun _ => 0, fun _ => b⟩

/-- What an unsatisfiable query excludes at an assignment. -/
lemma Solver.excludes {solver : Solver} {asserted : List BoolExpr}
    (h : solver.check asserted = .unsat) (m : Assignment) :
    ¬ ∀ f ∈ asserted, f.eval m = true := by
  intro hm
  exact (solver.unsat_iff asserted).mp h ⟨m, hm⟩

end Smt
