-- How computations with errors end.  A sequence ends well when each step does; else its error is
-- the first fault of its steps, in their order.
import Mathlib.Data.List.Forall2

namespace MavDialect.Outcome

variable {ε α β γ : Type}

/-! ## Ending well -/

theorem bind_eq_ok_iff {x : Except ε α} {f : α → Except ε β} {b : β} :
    (x >>= f) = .ok b ↔ ∃ a, x = .ok a ∧ f a = .ok b := by
  cases x with
  | error e => simp [bind, Except.bind]
  | ok a => simp [bind, Except.bind]

theorem map_eq_ok_iff {x : Except ε α} {f : α → β} {b : β} :
    x.map f = .ok b ↔ ∃ a, x = .ok a ∧ f a = b := by
  cases x <;> simp [Except.map]

/-- A walk over a list ends well when it does at each item. -/
theorem mapM_eq_ok_iff {f : α → Except ε β} {l : List α} {r : List β} :
    l.mapM f = .ok r ↔ l.map f = r.map .ok := by
  induction l generalizing r with
  | nil => cases r <;> simp [pure, Except.pure]
  | cons a l ih =>
    simp only [List.mapM_cons, bind_eq_ok_iff, ih, List.map_cons]
    constructor
    · rintro ⟨b, hb, bs, hbs, h⟩
      cases h
      simp [hb, hbs]
    · intro h
      cases r with
      | nil => simp at h
      | cons b bs =>
        obtain ⟨hb, hbs⟩ := List.cons.inj h
        exact ⟨b, hb, bs, hbs, rfl⟩

/-- A walk that ends well yields item by item. -/
theorem mapM_eq_ok_iff_forall₂ {f : α → Except ε β} {l : List α} {r : List β} :
    l.mapM f = .ok r ↔ List.Forall₂ (fun a b => f a = .ok b) l r := by
  rw [mapM_eq_ok_iff, ← List.forall₂_eq_eq_eq, List.forall₂_map_left_iff,
    List.forall₂_map_right_iff]

/-- What matching items make sure of holds of all the second ones. -/
theorem forall_mem_of_forall₂ {R : α → β → Prop} {q : β → Prop} {l : List α} {r : List β}
    (h : List.Forall₂ R l r) (hR : ∀ a b, R a b → q b) : ∀ b ∈ r, q b := by
  induction h with
  | nil => simp
  | cons hab _ ih => exact List.forall_mem_cons.2 ⟨hR _ _ hab, ih⟩

theorem mapM_cons_eq_ok_iff {f : α → Except ε β} {a : α} {l : List α} {r : List β} :
    (a :: l).mapM f = .ok r ↔ ∃ b bs, f a = .ok b ∧ l.mapM f = .ok bs ∧ b :: bs = r := by
  rw [List.mapM_cons]
  simp only [bind_eq_ok_iff, pure, Except.pure, Except.ok.injEq, exists_and_left]

theorem mapM_append_eq_ok_iff {f : α → Except ε β} {l others : List α} {r : List β} :
    (l ++ others).mapM f = .ok r ↔
      ∃ bs cs, l.mapM f = .ok bs ∧ others.mapM f = .ok cs ∧ bs ++ cs = r := by
  rw [List.mapM_append]
  simp only [bind_eq_ok_iff, pure, Except.pure, Except.ok.injEq, exists_and_left]

/-- A walk with one item in the middle of the others. -/
theorem mapM_middle_eq_ok_iff {f : α → Except ε β} {before after : List α} {a : α} {r : List β} :
    (before ++ a :: after).mapM f = .ok r ↔
      ∃ bs b cs, before.mapM f = .ok bs ∧ f a = .ok b ∧ after.mapM f = .ok cs ∧
        bs ++ b :: cs = r := by
  rw [mapM_append_eq_ok_iff]
  constructor
  · rintro ⟨bs, rest, hbs, hrest, rfl⟩
    obtain ⟨b, cs, hb, hcs, rfl⟩ := mapM_cons_eq_ok_iff.1 hrest
    exact ⟨bs, b, cs, hbs, hb, hcs, rfl⟩
  · rintro ⟨bs, b, cs, hbs, hb, hcs, rfl⟩
    exact ⟨bs, b :: cs, hbs, mapM_cons_eq_ok_iff.2 ⟨b, cs, hb, hcs, rfl⟩, rfl⟩

/-- A walk ends well exactly when each step does, in whatever order they stand. -/
theorem exists_mapM_eq_ok_iff {f : α → Except ε β} {l : List α} :
    (∃ r, l.mapM f = .ok r) ↔ ∀ a ∈ l, ∃ b, f a = .ok b := by
  induction l with
  | nil => exact iff_of_true ⟨[], rfl⟩ (by simp)
  | cons a l ih =>
    rw [List.forall_mem_cons, ← ih]
    simp only [mapM_cons_eq_ok_iff]
    constructor
    · rintro ⟨_, b, bs, hb, hbs, rfl⟩
      exact ⟨⟨b, hb⟩, bs, hbs⟩
    · rintro ⟨⟨b, hb⟩, bs, hbs⟩
      exact ⟨_, b, bs, hb, hbs, rfl⟩

/-- Two walks, the second over what the first yields, end well when one walk with both steps
does. -/
theorem mapM_mapM_eq_ok_iff {f : α → Except ε β} {g : β → Except ε γ} {l : List α} {r : List γ} :
    (∃ bs, l.mapM f = .ok bs ∧ bs.mapM g = .ok r) ↔ l.mapM (fun a => f a >>= g) = .ok r := by
  induction l generalizing r with
  | nil => simp [pure, Except.pure]
  | cons a l ih =>
    simp only [mapM_cons_eq_ok_iff, ← ih, bind_eq_ok_iff]
    constructor
    · rintro ⟨_, ⟨b, bs, hb, hbs, rfl⟩, h⟩
      obtain ⟨c, cs, hc, hcs, rfl⟩ := mapM_cons_eq_ok_iff.1 h
      exact ⟨c, cs, ⟨b, hb, hc⟩, ⟨bs, hbs, hcs⟩, rfl⟩
    · rintro ⟨c, cs, ⟨b, hb, hc⟩, ⟨bs, hbs, hcs⟩, rfl⟩
      exact ⟨b :: bs, ⟨b, bs, hb, hbs, rfl⟩, mapM_cons_eq_ok_iff.2 ⟨c, cs, hc, hcs, rfl⟩⟩

theorem exists_of_mem_mapM {f : α → Except ε β} {l : List α} {r : List β}
    (h : l.mapM f = .ok r) {b : β} (hb : b ∈ r) : ∃ a ∈ l, f a = .ok b := by
  have hmem : Except.ok b ∈ l.map f := mapM_eq_ok_iff.1 h ▸ List.mem_map_of_mem hb
  exact List.mem_map.1 hmem

theorem mapM_cons_eq_error_iff {f : α → Except ε β} {a : α} {l : List α} {e : ε} :
    (a :: l).mapM f = .error e ↔ f a = .error e ∨ (∃ b, f a = .ok b) ∧ l.mapM f = .error e := by
  rw [List.mapM_cons]
  cases f a <;> cases l.mapM f <;> simp [bind, Except.bind, pure, Except.pure]

/-- A walk ends in the error of the first step that has one, whatever comes after it. -/
theorem mapM_eq_error_iff {f : α → Except ε β} {l : List α} {e : ε} :
    l.mapM f = .error e ↔
      ∃ before a after, l = before ++ a :: after ∧ (∀ b ∈ before, ∃ c, f b = .ok c) ∧
        f a = .error e := by
  induction l with
  | nil => simp [pure, Except.pure]
  | cons a l ih =>
    rw [mapM_cons_eq_error_iff, ih]
    constructor
    · rintro (ha | ⟨hok, before, b, after, rfl, hbefore, hb⟩)
      · exact ⟨[], a, l, rfl, by simp, ha⟩
      · exact ⟨a :: before, b, after, rfl, List.forall_mem_cons.2 ⟨hok, hbefore⟩, hb⟩
    · rintro ⟨before, b, after, hl, hbefore, hb⟩
      cases before with
      | nil =>
        cases hl
        exact .inl hb
      | cons c before =>
        cases hl
        obtain ⟨hok, hbefore⟩ := List.forall_mem_cons.1 hbefore
        exact .inr ⟨hok, before, b, after, rfl, hbefore, hb⟩

/-- What each step keeps, the whole walk keeps. -/
theorem map_of_mapM {f : α → Except ε β} {seen : β → γ} {shown : α → γ} {l : List α} {r : List β}
    (hstep : ∀ a ∈ l, ∀ b, f a = .ok b → seen b = shown a) (h : l.mapM f = .ok r) :
    r.map seen = l.map shown := by
  induction l generalizing r with
  | nil =>
    cases r with
    | nil => rfl
    | cons b bs => cases h
  | cons a l ih =>
    have h := mapM_eq_ok_iff.1 h
    cases r with
    | nil => cases h
    | cons b bs =>
      obtain ⟨hb, hbs⟩ := List.cons.inj h
      have hrest := ih (fun c hc => hstep c (List.mem_cons_of_mem a hc)) (mapM_eq_ok_iff.2 hbs)
      rw [List.map_cons, List.map_cons, hstep a List.mem_cons_self b hb, hrest]

/-! ## Ending in the first fault -/

/-- The computation ends in the first of the faults, and ends well when there is none. -/
def Fails (x : Except ε α) (faults : List ε) : Prop :=
  match x with
  | .ok _ => faults = []
  | .error e => faults.head? = some e

theorem Fails.ok_iff {x : Except ε α} {faults : List ε} (h : Fails x faults) :
    (∃ a, x = .ok a) ↔ faults = [] := by
  cases x with
  | ok a => exact ⟨fun _ => h, fun _ => ⟨a, rfl⟩⟩
  | error e =>
    constructor
    · rintro ⟨a, ha⟩
      cases ha
    · rintro rfl
      cases h

theorem Fails.error_iff {x : Except ε α} {faults : List ε} (h : Fails x faults) (e : ε) :
    x = .error e ↔ faults.head? = some e := by
  unfold Fails at h
  cases x with
  | ok a => simp [h]
  | error e' => simp [h]

/-- Two computations with the same faults are the same when what they yield is. -/
theorem Fails.eq_of_ok {x y : Except ε α} {faults : List ε} (hx : Fails x faults)
    (hy : Fails y faults) (h : ∀ a, x = .ok a → y = .ok a) : x = y := by
  cases x with
  | ok a => exact (h a rfl).symm
  | error e => exact ((hy.error_iff e).2 ((hx.error_iff e).1 rfl)).symm

theorem fails_ok (a : α) : Fails (.ok a : Except ε α) [] := rfl

theorem fails_error (e : ε) : Fails (.error e : Except ε α) [e] := rfl

/-- A step that follows has its faults after those of the step before it. -/
theorem Fails.bind {x : Except ε α} {f : α → Except ε β} {faults later : List ε}
    (hx : Fails x faults) (hf : ∀ a, x = .ok a → Fails (f a) later) :
    Fails (x >>= f) (faults ++ later) := by
  cases x with
  | ok a =>
    have hnil : faults = [] := hx
    rw [hnil]
    exact hf a rfl
  | error e =>
    have hhead : faults.head? = some e := hx
    show (faults ++ later).head? = some e
    rw [List.head?_append, hhead]
    rfl

theorem Fails.map {x : Except ε α} {faults : List ε} (f : α → β) (h : Fails x faults) :
    Fails (x.map f) faults := by
  cases x <;> exact h

/-- A last step that has no fault. -/
theorem Fails.bind_pure {x : Except ε α} {faults : List ε} (f : α → β) (h : Fails x faults) :
    Fails (x >>= fun a => pure (f a)) faults := by
  cases x <;> exact h

/-- The faults of a walk are those of its items, in their order. -/
theorem fails_mapM {f : α → Except ε β} {faults : α → List ε} {l : List α}
    (h : ∀ a ∈ l, Fails (f a) (faults a)) : Fails (l.mapM f) (l.flatMap faults) := by
  induction l with
  | nil => rfl
  | cons a l ih =>
    have hl := ih fun b hb => h b (List.mem_cons_of_mem a hb)
    rw [List.mapM_cons, List.flatMap_cons]
    exact (h a List.mem_cons_self).bind fun b _ => hl.bind_pure (b :: ·)

end MavDialect.Outcome
