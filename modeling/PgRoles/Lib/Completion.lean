import Mathlib

/-!
# Completions of partial knowledge

Of some facts it is known that they hold, of some that they do not, and of the others nothing. A
completion is a set of facts that agrees with what is known. For a property that further facts never
break, it is enough to look at two of them: the property holds in every completion if it holds of the
facts known to hold (`forall_completes_iff`), and in some completion if it holds of those not known to
fail (`exists_completes_iff`). A verdict that is exact in this sense survives more knowledge
(`Exact.of_refines`).
-/

set_option autoImplicit false

universe u

namespace PgRoles.Lib

section Completion

variable {K : Type u}

/-- A set of facts that agrees with what is known. -/
def Completes (known : K → Option Bool) (facts : Set K) : Prop :=
  ∀ k b, known k = some b → (k ∈ facts ↔ b = true)

/-- The facts known to hold. -/
def lowerFacts (known : K → Option Bool) : Set K := {k | known k = some true}

/-- The facts not known to fail. -/
def upperFacts (known : K → Option Bool) : Set K := {k | known k ≠ some false}

variable {known known' : K → Option Bool} {facts : Set K}

theorem mem_lowerFacts {k : K} : k ∈ lowerFacts known ↔ known k = some true := Iff.rfl

theorem mem_upperFacts {k : K} : k ∈ upperFacts known ↔ known k ≠ some false := Iff.rfl

theorem completes_lowerFacts : Completes known (lowerFacts known) := by
  intro k b hk
  rw [mem_lowerFacts, hk, Option.some.injEq]

theorem completes_upperFacts : Completes known (upperFacts known) := by
  intro k b hk
  rw [mem_upperFacts, hk]
  cases b <;> simp

theorem Completes.lower_subset (h : Completes known facts) : lowerFacts known ⊆ facts :=
  fun k hk => (h k true hk).2 rfl

/-- No completion has facts that are known to fail. -/
theorem Completes.subset_upper (h : Completes known facts) : facts ⊆ upperFacts known := by
  intro k hk hfalse
  exact Bool.false_ne_true ((h k false hfalse).1 hk)

section Property

variable {P : Set K → Prop} (hP : ∀ a b : Set K, a ⊆ b → P a → P b)
include hP

/-- A monotone property holds in every completion when it holds in the least one. -/
theorem forall_completes_iff : (∀ facts, Completes known facts → P facts) ↔ P (lowerFacts known) :=
  ⟨fun h => h _ completes_lowerFacts, fun h _ hfacts => hP _ _ hfacts.lower_subset h⟩

/-- It holds in some completion when it holds in the greatest one. -/
theorem exists_completes_iff : (∃ facts, Completes known facts ∧ P facts) ↔ P (upperFacts known) :=
  ⟨fun ⟨_, hfacts, h⟩ => hP _ _ hfacts.subset_upper h, fun h => ⟨_, completes_upperFacts, h⟩⟩

end Property

/-- More is known, and nothing else. -/
def KnownRefines (known known' : K → Option Bool) : Prop :=
  ∀ k b, known k = some b → known' k = some b

/-- What completes more knowledge completes less. -/
theorem Completes.of_refines (h : KnownRefines known known') (hfacts : Completes known' facts) :
    Completes known facts :=
  fun k b hk => hfacts k b (h k b hk)

/-- An answer about a property of the facts is exact: yes exactly when every completion has the
property, and no exactly when none has it. -/
structure Exact (P : Set K → Prop) (known : K → Option Bool) (yes no : Prop) : Prop where
  yes_iff : yes ↔ ∀ facts, Completes known facts → P facts
  no_iff : no ↔ ¬ ∃ facts, Completes known facts ∧ P facts

/-- For a property that further facts never break, the two extreme completions decide. -/
theorem exact_of_extremes {P : Set K → Prop} (hP : ∀ a b : Set K, a ⊆ b → P a → P b)
    {yes no : Prop} (hyes : yes ↔ P (lowerFacts known)) (hno : no ↔ ¬ P (upperFacts known)) :
    Exact P known yes no :=
  ⟨by rw [hyes, forall_completes_iff hP], by rw [hno, exists_completes_iff hP]⟩

/-- A definite answer stays when more is known. -/
theorem Exact.of_refines {P : Set K → Prop} {yes no yes' no' : Prop} (h : Exact P known yes no)
    (h' : Exact P known' yes' no') (hrefines : KnownRefines known known') :
    (yes → yes') ∧ (no → no') := by
  constructor
  · intro hyes
    exact h'.yes_iff.2 fun facts hfacts => h.yes_iff.1 hyes facts (hfacts.of_refines hrefines)
  · intro hno
    refine h'.no_iff.2 fun ⟨facts, hfacts, hP⟩ => ?_
    exact h.no_iff.1 hno ⟨facts, hfacts.of_refines hrefines, hP⟩

end Completion

end PgRoles.Lib
