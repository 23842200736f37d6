import Mathlib

/-!
# Checks that may fail

A validator is a sequence of checks in `Except`; the first failing one decides the error. What an
accepted input satisfies is read off check by check: a sequence succeeds when each part does
(`bind_eq_ok`), a loop of checks when every iteration does (`forM_eq_ok`), and a loop that collects
results when each element gives its own (`mapM_eq_ok`).
-/

set_option autoImplicit false

namespace PgRoles.Lib

variable {ε α β : Type}

/-- Fail with the error when the condition holds. -/
def rejectIf (condition : Bool) (error : ε) : Except ε Unit :=
  if condition then .error error else .ok ()

@[simp] theorem rejectIf_eq_ok {condition : Bool} {error : ε} {u : Unit} :
    rejectIf condition error = .ok u ↔ condition = false := by
  cases condition <;> simp [rejectIf]

theorem bind_eq_ok {x : Except ε α} {f : α → Except ε β} {b : β} :
    (x >>= f) = .ok b ↔ ∃ a, x = .ok a ∧ f a = .ok b := by
  cases x with
  | error e => simp [bind, Except.bind]
  | ok a => simp [bind, Except.bind]

theorem except_map_map {γ : Type} (f : α → β) (g : β → γ) (x : Except ε α) :
    (x.map f).map g = x.map fun a => g (f a) := by
  cases x with
  | error e => rfl
  | ok a => rfl

/-- A check before the rest. -/
theorem check_bind_eq_ok {x : Except ε Unit} {f : Unit → Except ε β} {b : β} :
    (x >>= f) = .ok b ↔ x = .ok () ∧ f () = .ok b := by
  rw [bind_eq_ok]
  constructor
  · intro h
    obtain ⟨⟨⟩, hx, hf⟩ := h
    exact ⟨hx, hf⟩
  · intro h
    exact ⟨(), h⟩

/-- A loop of checks passes when each of them does. -/
theorem forM_eq_ok {l : List α} {f : α → Except ε Unit} {u : Unit} :
    l.forM f = .ok u ↔ ∀ a ∈ l, f a = .ok () := by
  induction l with
  | nil => simp [List.forM, pure, Except.pure]
  | cons a l ih =>
      have hstep : (a :: l).forM f = (f a >>= fun _ => l.forM f) := rfl
      rw [hstep, check_bind_eq_ok, ih, List.forall_mem_cons]

/-- A collecting loop succeeds when each element gives its result. -/
theorem mapM_eq_ok {l : List α} {f : α → Except ε β} {r : List β} :
    l.mapM f = .ok r ↔ List.Forall₂ (fun a b => f a = .ok b) l r := by
  induction l generalizing r with
  | nil =>
      rw [List.mapM_nil, List.forall₂_nil_left_iff]
      constructor
      · intro h
        exact (Except.ok.inj h).symm
      · intro h
        rw [h]
        rfl
  | cons a l ih =>
      rw [List.mapM_cons, bind_eq_ok, List.forall₂_cons_left_iff]
      constructor
      · intro h
        obtain ⟨b, hb, hrest⟩ := h
        obtain ⟨bs, hbs, hr⟩ := bind_eq_ok.1 hrest
        exact ⟨b, bs, hb, ih.1 hbs, (Except.ok.inj hr).symm⟩
      · intro h
        obtain ⟨b, bs, hb, hbs, rfl⟩ := h
        exact ⟨b, hb, bind_eq_ok.2 ⟨bs, ih.2 hbs, rfl⟩⟩

/-- A collecting loop succeeds when every element has a result. -/
theorem exists_mapM_eq_ok {l : List α} {f : α → Except ε β} (h : ∀ a ∈ l, ∃ b, f a = .ok b) :
    ∃ r, l.mapM f = .ok r := by
  induction l with
  | nil => exact ⟨[], rfl⟩
  | cons a l ih =>
      obtain ⟨b, hb⟩ := h a List.mem_cons_self
      obtain ⟨r, hr⟩ := ih fun c hc => h c (List.mem_cons_of_mem _ hc)
      exact ⟨b :: r, mapM_eq_ok.2 (.cons hb (mapM_eq_ok.1 hr))⟩

/-- Every collected result comes from an element. -/
theorem exists_of_mem_mapM {l : List α} {f : α → Except ε β} {r : List β} {b : β}
    (h : l.mapM f = .ok r) (hb : b ∈ r) : ∃ a ∈ l, f a = .ok b := by
  have hall := mapM_eq_ok.1 h
  clear h
  induction hall with
  | nil => exact absurd hb List.not_mem_nil
  | cons hhead htail ih =>
      rcases List.mem_cons.1 hb with rfl | hb
      · exact ⟨_, List.mem_cons_self, hhead⟩
      · obtain ⟨a, ha, hfa⟩ := ih hb
        exact ⟨a, List.mem_cons_of_mem _ ha, hfa⟩

/-- Every element gives a collected result. -/
theorem exists_of_mem_of_mapM {l : List α} {f : α → Except ε β} {r : List β} {a : α}
    (h : l.mapM f = .ok r) (ha : a ∈ l) : ∃ b ∈ r, f a = .ok b := by
  have hall := mapM_eq_ok.1 h
  clear h
  induction hall with
  | nil => exact absurd ha List.not_mem_nil
  | cons hhead htail ih =>
      rcases List.mem_cons.1 ha with rfl | ha
      · exact ⟨_, List.mem_cons_self, hhead⟩
      · obtain ⟨b, hb, hfb⟩ := ih ha
        exact ⟨b, List.mem_cons_of_mem _ hb, hfb⟩

/-- A collecting loop gives the same results in another order. -/
theorem mapM_perm {l l' : List α} {f : α → Except ε β} {r : List β} (hperm : l.Perm l')
    (h : l.mapM f = .ok r) : ∃ r', l'.mapM f = .ok r' ∧ r'.Perm r := by
  obtain ⟨r', hall, hr⟩ := List.perm_comp_forall₂ hperm.symm (mapM_eq_ok.1 h)
  exact ⟨r', mapM_eq_ok.2 hall, hr⟩

/-- A loop of checks passes in another order. -/
theorem forM_perm {l l' : List α} {f : α → Except ε Unit} (hperm : l.Perm l')
    (h : l.forM f = .ok ()) : l'.forM f = .ok () :=
  forM_eq_ok.2 fun a ha => forM_eq_ok.1 h a (hperm.mem_iff.2 ha)

/-- A loop over collected lists is one loop. -/
theorem foldlM_flatMap {S : Type} (f : α → List β) (step : S → β → Except ε S) (l : List α)
    (s : S) : (l.flatMap f).foldlM step s = l.foldlM (fun s a => (f a).foldlM step s) s := by
  induction l generalizing s with
  | nil => rfl
  | cons a l ih =>
      rw [List.flatMap_cons, List.foldlM_append, List.foldlM_cons]
      exact bind_congr fun t => ih t

/-- An invariant of a checking loop that knows what has been checked. -/
theorem foldlM_invariant {S C : Type} (Inv : List C → S → Prop) {step : S → C → Except ε S}
    (hstep : ∀ done s c s', Inv done s → step s c = .ok s' → Inv (done ++ [c]) s')
    {l : List C} {s t : S} {done : List C} (hs : Inv done s) (h : l.foldlM step s = .ok t) :
    Inv (done ++ l) t := by
  induction l generalizing s done with
  | nil =>
      rw [List.foldlM_nil] at h
      rw [List.append_nil, ← Except.ok.inj h]
      exact hs
  | cons c l ih =>
      rw [List.foldlM_cons] at h
      obtain ⟨s', hc, hl⟩ := bind_eq_ok.1 h
      have hrest := ih (hstep done s c s' hs hc) hl
      rwa [List.append_assoc, List.singleton_append] at hrest

end PgRoles.Lib
