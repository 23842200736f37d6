import PgRoles.Lib.BTree

/-!
# Runs of steps

A run applies a list of steps to a state from the left. Two shapes of runs occur throughout.

- A run whose steps may fail. Where every step is total up to a guard, a run whose guards hold
  along an invariant succeeds and is the fold of the total steps (`foldlM_eq_foldl`).
- A run observed through one property of the state. Steps that only establish it and steps that
  only destroy it are summed up by what the list contains (`holds_foldl_of_adds`,
  `holds_foldl_of_removes`), so the order inside such a phase does not matter.
-/

set_option autoImplicit false

namespace PgRoles.Lib

universe u v w

variable {S : Type u} {C : Type v}

/-! ## Runs that may fail -/

/-- A run is one run after the other. -/
theorem foldlM_append_eq_some {step : S → C → Option S} {l₁ l₂ : List C} {s t u : S}
    (h₁ : l₁.foldlM step s = some t) (h₂ : l₂.foldlM step t = some u) :
    (l₁ ++ l₂).foldlM step s = some u := by
  rw [List.foldlM_append, h₁]
  exact h₂

/-- A run whose guards hold along an invariant is the fold of the total steps. -/
theorem foldlM_eq_foldl {step : S → C → Option S} {guard : S → C → Prop} {next : S → C → S}
    (hstep : ∀ s c, guard s c → step s c = some (next s c)) (Inv : S → Prop) {l : List C}
    (hinv : ∀ s, Inv s → ∀ c ∈ l, guard s c ∧ Inv (next s c)) {s : S} (hs : Inv s) :
    l.foldlM step s = some (l.foldl next s) ∧ Inv (l.foldl next s) := by
  induction l generalizing s with
  | nil => exact ⟨rfl, hs⟩
  | cons c l ih =>
      obtain ⟨hguard, hnext⟩ := hinv s hs c List.mem_cons_self
      have hrest := ih (fun s hs d hd => hinv s hs d (List.mem_cons_of_mem _ hd)) hnext
      rw [List.foldlM_cons, hstep s c hguard]
      exact hrest

/-! ## Runs observed through one property -/

theorem foldl_invariant (Inv : S → Prop) {next : S → C → S} {l : List C}
    (hinv : ∀ s, Inv s → ∀ c ∈ l, Inv (next s c)) {s : S} (hs : Inv s) : Inv (l.foldl next s) := by
  induction l generalizing s with
  | nil => exact hs
  | cons c l ih =>
      exact ih (fun s hs d hd => hinv s hs d (List.mem_cons_of_mem _ hd))
        (hinv s hs c List.mem_cons_self)

/-- A run that changes what is observed has a step that does. -/
theorem exists_step_of_foldl_ne {O : Type w} (observe : S → O) {next : S → C → S} {l : List C}
    {s : S} (h : observe (l.foldl next s) ≠ observe s) :
    ∃ before c after, l = before ++ c :: after ∧
      observe (next (before.foldl next s) c) ≠ observe (before.foldl next s) := by
  induction l generalizing s with
  | nil => exact absurd rfl h
  | cons c l ih =>
      by_cases hstep : observe (next s c) = observe s
      · rw [← hstep] at h
        obtain ⟨before, d, after, hl, hd⟩ := ih h
        exact ⟨c :: before, d, after, by rw [hl, List.cons_append], hd⟩
      · exact ⟨[], c, l, rfl, hstep⟩

/-- Steps that a filter drops because they change nothing. -/
theorem foldl_eq_foldl_filter {next : S → C → S} {q : C → Bool}
    (h : ∀ s c, q c = false → next s c = s) (l : List C) (s : S) :
    l.foldl next s = (l.filter q).foldl next s := by
  induction l generalizing s with
  | nil => rfl
  | cons c l ih =>
      cases hq : q c with
      | true => rw [List.filter_cons_of_pos hq, List.foldl_cons, List.foldl_cons, ih]
      | false =>
          rw [List.filter_cons_of_neg (by simp [hq]), List.foldl_cons, h s c hq, ih]

/-- A phase that can only establish a property. -/
theorem holds_foldl_of_adds (holds : S → Prop) (adds : C → Prop) {next : S → C → S} {l : List C}
    (h : ∀ s, ∀ c ∈ l, (holds (next s c) ↔ holds s ∨ adds c)) (s : S) :
    holds (l.foldl next s) ↔ holds s ∨ ∃ c ∈ l, adds c := by
  induction l generalizing s with
  | nil => simp
  | cons c l ih =>
      rw [List.foldl_cons, ih fun s d hd => h s d (List.mem_cons_of_mem _ hd),
        h s c List.mem_cons_self, List.exists_mem_cons_iff, or_assoc]

/-- A phase that can only destroy a property. -/
theorem holds_foldl_of_removes (holds : S → Prop) (removes : C → Prop) {next : S → C → S}
    {l : List C} (h : ∀ s, ∀ c ∈ l, (holds (next s c) ↔ holds s ∧ ¬ removes c)) (s : S) :
    holds (l.foldl next s) ↔ holds s ∧ ∀ c ∈ l, ¬ removes c := by
  induction l generalizing s with
  | nil => simp
  | cons c l ih =>
      rw [List.foldl_cons, ih fun s d hd => h s d (List.mem_cons_of_mem _ hd),
        h s c List.mem_cons_self, List.forall_mem_cons, and_assoc]

/-- A phase in which the steps that matter all set the property to the same value. -/
theorem holds_foldl_of_sets (holds : S → Prop) (sets : C → Prop) (value : Prop) {next : S → C → S}
    {l : List C} (hset : ∀ s, ∀ c ∈ l, sets c → (holds (next s c) ↔ value))
    (hkeep : ∀ s, ∀ c ∈ l, ¬ sets c → (holds (next s c) ↔ holds s)) (s : S) :
    ((∃ c ∈ l, sets c) → (holds (l.foldl next s) ↔ value)) ∧
      ((∀ c ∈ l, ¬ sets c) → (holds (l.foldl next s) ↔ holds s)) := by
  induction l generalizing s with
  | nil => simp
  | cons c l ih =>
      have hrest := ih (fun s d hd => hset s d (List.mem_cons_of_mem _ hd))
        (fun s d hd => hkeep s d (List.mem_cons_of_mem _ hd)) (next s c)
      rw [List.foldl_cons]
      by_cases hlater : ∃ d ∈ l, sets d
      · refine ⟨fun _ => hrest.1 hlater, fun hnone => ?_⟩
        obtain ⟨d, hd, hsets⟩ := hlater
        exact absurd hsets (hnone d (List.mem_cons_of_mem _ hd))
      · have hlast := hrest.2 fun d hd hsets => hlater ⟨d, hd, hsets⟩
        rw [hlast]
        constructor
        · rintro ⟨d, hd, hsets⟩
          rcases List.mem_cons.1 hd with rfl | hd
          · exact hset s d List.mem_cons_self hsets
          · exact absurd ⟨d, hd, hsets⟩ hlater
        · intro hnone
          exact hkeep s c List.mem_cons_self (hnone c List.mem_cons_self)

end PgRoles.Lib
