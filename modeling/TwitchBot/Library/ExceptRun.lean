/-! Evaluating and inverting computations that may throw. -/

namespace ExceptRun

universe u v

variable {ε : Type v} {σ τ : Type u}

@[simp] theorem ok_bind (a : σ) (f : σ → Except ε τ) : (Except.ok a >>= f) = f a := rfl

@[simp] theorem error_bind (e : ε) (f : σ → Except ε τ) : (Except.error e >>= f) = .error e := rfl

@[simp] theorem pure_eq_ok (a : σ) : (pure a : Except ε σ) = .ok a := rfl

theorem bind_eq_ok {x : Except ε σ} {f : σ → Except ε τ} {b : τ} :
    (x >>= f) = .ok b ↔ ∃ a, x = .ok a ∧ f a = .ok b := by
  cases x with
  | error e => simp
  | ok a => simp

/-- A traversal returns the list of the returned values. -/
theorem mapM_eq_ok {f : σ → Except ε τ} {xs : List σ} {ys : List τ} (run : xs.mapM f = .ok ys) :
    ∀ y ∈ ys, ∃ x ∈ xs, f x = .ok y := by
  induction xs generalizing ys with
  | nil =>
    cases Except.ok.inj run
    simp
  | cons x xs ih =>
    rw [List.mapM_cons] at run
    obtain ⟨y, first, run⟩ := bind_eq_ok.mp run
    obtain ⟨rest, tail, run⟩ := bind_eq_ok.mp run
    cases Except.ok.inj run
    intro z member
    rcases List.mem_cons.mp member with rfl | member
    · exact ⟨x, List.mem_cons_self .., first⟩
    · obtain ⟨w, inTail, run⟩ := ih tail z member
      exact ⟨w, List.mem_cons_of_mem _ inTail, run⟩

theorem mapM_length {f : σ → Except ε τ} {xs : List σ} {ys : List τ} (run : xs.mapM f = .ok ys) :
    ys.length = xs.length := by
  induction xs generalizing ys with
  | nil =>
    cases Except.ok.inj run
    rfl
  | cons x xs ih =>
    rw [List.mapM_cons] at run
    obtain ⟨y, _, run⟩ := bind_eq_ok.mp run
    obtain ⟨rest, tail, run⟩ := bind_eq_ok.mp run
    cases Except.ok.inj run
    rw [List.length_cons, List.length_cons, ih tail]

/-- A traversal in which nothing throws. -/
theorem mapM_ok {f : σ → Except ε τ} {g : σ → τ} {xs : List σ} (each : ∀ x ∈ xs, f x = .ok (g x)) :
    xs.mapM f = .ok (xs.map g) := by
  induction xs with
  | nil => rfl
  | cons x xs ih =>
    rw [List.mapM_cons, each x (List.mem_cons_self ..), ok_bind,
      ih (fun y member => each y (List.mem_cons_of_mem _ member))]
    rfl

/-- A traversal that reads back what was written. -/
theorem mapM_map_ok {read : σ → Except ε τ} {write : τ → σ} {ys : List τ} (each : ∀ y ∈ ys, read (write y) = .ok y) :
    (ys.map write).mapM read = .ok ys := by
  induction ys with
  | nil => rfl
  | cons y ys ih =>
    rw [List.map_cons, List.mapM_cons, each y (List.mem_cons_self ..), ok_bind,
      ih (fun other member => each other (List.mem_cons_of_mem _ member))]
    rfl

/-- A traversal of a list in which one element is exchanged for another: it ends
as before, up to what the other element makes of its place. -/
theorem mapM_modify {κ : Type u} {f : σ → Except ε τ} {old new : σ → σ} {change : Except ε κ} {update : κ → τ → τ}
    (step : ∀ x y, f (old x) = .ok y → f (new x) = change >>= fun k => .ok (update k y)) :
    ∀ {xs : List σ} {index : Nat} {ys : List τ}, index < xs.length → (xs.modify index old).mapM f = .ok ys →
      (xs.modify index new).mapM f = change >>= fun k => .ok (ys.modify index (update k)) := by
  intro xs
  induction xs with
  | nil => intro index ys bound; cases bound
  | cons x xs ih =>
    intro index ys bound run
    cases index with
    | zero =>
      rw [List.modify_zero_cons, List.mapM_cons] at run
      obtain ⟨y, first, run⟩ := bind_eq_ok.mp run
      obtain ⟨rest, tail, run⟩ := bind_eq_ok.mp run
      cases Except.ok.inj run
      rw [List.modify_zero_cons, List.mapM_cons, step x y first, tail]
      cases change with
      | error e => rfl
      | ok k => rfl
    | succ index =>
      rw [List.modify_succ_cons, List.mapM_cons] at run
      obtain ⟨y, first, run⟩ := bind_eq_ok.mp run
      obtain ⟨rest, tail, run⟩ := bind_eq_ok.mp run
      cases Except.ok.inj run
      rw [List.modify_succ_cons, List.mapM_cons, first, ok_bind, ih (Nat.lt_of_succ_lt_succ bound) tail]
      cases change with
      | error e => rfl
      | ok k => rfl

end ExceptRun
