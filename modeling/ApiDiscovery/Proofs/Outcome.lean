/-!
# How computations end

A computation ends with a result or with a fault. What is known of a result tells of the computations that led to
it, and what is read off a computation that it has one.
-/

namespace ApiDiscovery

variable {ε : Type u} {α β : Type v}

/-- Two computations one after the other have a result where both have. -/
theorem bind_eq_ok {x : Except ε α} {f : α → Except ε β} {b : β} :
    (x >>= f) = .ok b ↔ ∃ a, x = .ok a ∧ f a = .ok b := by
  cases x with
  | error e => exact ⟨nofun, nofun⟩
  | ok a => exact ⟨fun h => ⟨a, rfl, h⟩, fun ⟨_, ha, h⟩ => by cases ha; exact h⟩

/-- They end with a fault where the first one does, or the second one after a result of the first. -/
theorem bind_eq_error {x : Except ε α} {f : α → Except ε β} {e : ε} :
    (x >>= f) = .error e ↔ x = .error e ∨ ∃ a, x = .ok a ∧ f a = .error e := by
  cases x with
  | error e' =>
      refine ⟨fun h => .inl (congrArg Except.error (Except.error.inj h)), ?_⟩
      rintro (h | ⟨a, ha, -⟩)
      · exact congrArg Except.error (Except.error.inj h)
      · cases ha
  | ok a =>
      refine ⟨fun h => .inr ⟨a, rfl, h⟩, ?_⟩
      rintro (h | ⟨a', ha, h⟩)
      · cases h
      · cases ha
        exact h

/-- What computations one for each element end with a fault for, one of them does. -/
theorem exists_of_mapM_error {f : α → Except ε β} {l : List α} {e : ε} (h : l.mapM f = .error e) :
    ∃ a ∈ l, f a = .error e := by
  induction l with
  | nil => cases h
  | cons a l ih =>
      rw [List.mapM_cons] at h
      rcases bind_eq_error.1 h with ha | ⟨b, -, h⟩
      · exact ⟨a, List.mem_cons_self, ha⟩
      · rcases bind_eq_error.1 h with hl | ⟨bs, -, h⟩
        · obtain ⟨a', ha', hf⟩ := ih hl
          exact ⟨a', List.mem_cons_of_mem a ha', hf⟩
        · cases h

theorem map_eq_error {x : Except ε α} {f : α → β} {e : ε} : x.map f = .error e ↔ x = .error e := by
  cases x with
  | error e' =>
      constructor
      · intro h
        cases h
        rfl
      · intro h
        cases h
        rfl
  | ok a => exact ⟨nofun, nofun⟩

theorem ok_bind (a : α) (f : α → Except ε β) : (Except.ok a >>= f) = f a := rfl

theorem isOk_map (f : α → β) (x : Except ε α) : (x.map f).isOk = x.isOk := by
  cases x <;> rfl

theorem eq_ok_of_toOption {x : Except ε α} {a : α} (h : x.toOption = some a) : x = .ok a := by
  cases x with
  | error e => cases h
  | ok b => exact congrArg Except.ok (Option.some.inj h)

/-- What a computation ends with, where something that is read off it shows that it does. -/
theorem exists_of_toOption_map {x : Except ε α} {f : α → β} {b : β}
    (h : x.toOption.map f = some b) : ∃ a, x = .ok a ∧ f a = b := by
  cases x with
  | error e => cases h
  | ok a => exact ⟨a, rfl, Option.some.inj h⟩

/-! ## Computations of several steps -/

/-- The computation ends with a result of the one kind, or with a fault of the other. -/
def Ends (F : ε → Prop) (P : α → Prop) : Except ε α → Prop
  | .ok a => P a
  | .error e => F e

section

variable {F : ε → Prop} {P : α → Prop} {Q : β → Prop}

theorem Ends.bind {x : Except ε α} {f : α → Except ε β} (hx : Ends F P x) (hf : ∀ a, P a → Ends F Q (f a)) :
    Ends F Q (x >>= f) := by
  cases x with
  | error e => exact hx
  | ok a => exact hf a hx

theorem Ends.ite {c : Prop} [Decidable c] {x y : Except ε α} (hx : c → Ends F P x) (hy : ¬ c → Ends F P y) :
    Ends F P (if c then x else y) := by
  split
  next h => exact hx h
  next h => exact hy h

theorem Ends.map {x : Except ε α} {f : α → β} (hx : Ends F P x) (hf : ∀ a, P a → Q (f a)) : Ends F Q (x.map f) := by
  cases x with
  | error e => exact hx
  | ok a => exact hf a hx

/-- Faults of one kind are faults of a wider one. -/
theorem Ends.mono {G : ε → Prop} {x : Except ε α} (hx : Ends F P x) (hF : ∀ e, F e → G e) : Ends G P x := by
  cases x with
  | error e => exact hF e hx
  | ok a => exact hx

/-- What each step keeps, the steps for all elements of a list keep. -/
theorem Ends.foldlM {f : β → α → Except ε β} (hf : ∀ b a, Q b → Ends F Q (f b a)) {b : β} (hb : Q b)
    (l : List α) : Ends F Q (l.foldlM f b) := by
  induction l generalizing b with
  | nil => exact hb
  | cons a l ih =>
      rw [List.foldlM_cons]
      exact (hf b a hb).bind fun b' hb' => ih hb'

end

end ApiDiscovery
