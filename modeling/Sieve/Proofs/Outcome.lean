import Mathlib.Data.List.Forall2

-- Taking a computation that may fail apart: when it comes to a value, and to which error else.
namespace Sieve.Outcome

variable {ε δ α β : Type}

theorem map_eq_ok {f : α → β} {x : Except ε α} {b : β} :
    x.map f = .ok b ↔ ∃ a, x = .ok a ∧ f a = b := by
  cases x <;> simp [Except.map]

theorem map_eq_error {f : α → β} {x : Except ε α} {e : ε} : x.map f = .error e ↔ x = .error e := by
  cases x <;> simp [Except.map]

theorem mapError_eq_ok {f : ε → δ} {x : Except ε α} {a : α} :
    x.mapError f = .ok a ↔ x = .ok a := by
  cases x <;> constructor <;> intro h <;> cases h <;> rfl

theorem bind_eq_ok {x : Except ε α} {f : α → Except ε β} {b : β} :
    x >>= f = .ok b ↔ ∃ a, x = .ok a ∧ f a = .ok b := by
  cases x <;> simp [bind, Except.bind]

-- Something made of a value, in front of a list that is still to be computed.
theorem bind_cons_eq_ok {x : Except ε α} {xs : Except ε (List β)} (f : α → β) {out : List β} :
    (do let a ← x; let rest ← xs; return f a :: rest) = .ok out ↔
      ∃ a rest, x = .ok a ∧ xs = .ok rest ∧ out = f a :: rest := by
  cases x with
  | error e => simp [bind, Except.bind]
  | ok a =>
      cases xs with
      | error e => simp [bind, Except.bind]
      | ok rest => simp [bind, Except.bind, pure, Except.pure, eq_comm]

-- The error that a computation ends in, if it does.
def error? : Except ε α → Option ε
  | .ok _ => none
  | .error e => some e

theorem error?_eq_some {x : Except ε α} {e : ε} : error? x = some e ↔ x = .error e := by
  cases x <;> simp [error?]

theorem error?_eq_none {x : Except ε α} : error? x = none ↔ ∃ a, x = .ok a := by
  cases x <;> simp [error?]

theorem error?_map (f : α → β) (x : Except ε α) : error? (x.map f) = error? x := by
  cases x <;> rfl

theorem error?_bind_cons (f : α → β) (x : Except ε α) (xs : Except ε (List β)) :
    error? (do let a ← x; let rest ← xs; return f a :: rest) = (error? x).or (error? xs) := by
  cases x with
  | error e => rfl
  | ok a => cases xs <;> rfl

-- Of two lists side by side each element of the one has its counterpart in the other.
theorem exists_mem_of_forall₂ {relation : α → β → Prop} {xs : List α} {ys : List β}
    (h : List.Forall₂ relation xs ys) {x : α} (hx : x ∈ xs) : ∃ y ∈ ys, relation x y := by
  induction h with
  | nil => cases hx
  | @cons first other xs ys hfirst _ ih =>
      rcases List.mem_cons.mp hx with rfl | hrest
      · exact ⟨other, .head _, hfirst⟩
      · obtain ⟨y, hy, hxy⟩ := ih hrest
        exact ⟨y, .tail _ hy, hxy⟩

theorem exists_ok_of_isOk {x : Except ε α} (h : x.isOk = true) : ∃ a, x = .ok a := by
  cases x with
  | error e => cases h
  | ok a => exact ⟨a, rfl⟩

theorem toOption_map (f : α → β) (x : Except ε α) : (x.map f).toOption = x.toOption.map f := by
  cases x <;> rfl

theorem map_bind {γ : Type} (f : β → γ) (x : Except ε α) (g : α → Except ε β) :
    (x >>= g).map f = x >>= fun a => (g a).map f := by
  cases x <;> rfl

theorem mapError_bind (f : ε → δ) (x : Except ε α) (g : α → Except ε β) :
    (x >>= g).mapError f = x.mapError f >>= fun a => (g a).mapError f := by
  cases x <;> rfl

theorem mapError_map (f : ε → δ) (g : α → β) (x : Except ε α) :
    (x.map g).mapError f = (x.mapError f).map g := by
  cases x <;> rfl

-- Lists that are looked through for an element that passes, up to the first that cannot be tested.
section Search

variable {test : α → Except ε Bool}

theorem anyM_singleton (x : α) : [x].anyM test = test x := by
  rw [List.anyM_cons]
  rcases test x with e | (_ | _) <;> rfl

theorem anyM_append (xs ys : List α) :
    (xs ++ ys).anyM test = xs.anyM test >>= fun b => if b then .ok true else ys.anyM test := by
  induction xs with
  | nil => rfl
  | cons x xs ih =>
      rw [List.cons_append, List.anyM_cons, List.anyM_cons, ih]
      rcases test x with e | (_ | _) <;> rfl

theorem anyM_map (f : β → α) (xs : List β) :
    (xs.map f).anyM test = xs.anyM fun x => test (f x) := by
  induction xs with
  | nil => rfl
  | cons x xs ih => rw [List.map_cons, List.anyM_cons, List.anyM_cons, ih]

theorem anyM_flatMap (f : β → List α) (xs : List β) :
    (xs.flatMap f).anyM test = xs.anyM fun x => (f x).anyM test := by
  induction xs with
  | nil => rfl
  | cons x xs ih =>
      rw [List.flatMap_cons, anyM_append, List.anyM_cons, ih]
      rfl

theorem anyM_congr {test' : α → Except ε Bool} {xs : List α} (h : ∀ x ∈ xs, test x = test' x) :
    xs.anyM test = xs.anyM test' := by
  induction xs with
  | nil => rfl
  | cons x xs ih =>
      rw [List.forall_mem_cons] at h
      rw [List.anyM_cons, List.anyM_cons, h.1, ih h.2]

theorem any_congr_of_mem {xs : List α} {p q : α → Bool} (h : ∀ x ∈ xs, p x = q x) :
    xs.any p = xs.any q := by
  rw [Bool.eq_iff_iff, List.any_eq_true, List.any_eq_true]
  exact exists_congr fun x => and_congr_right fun hmem => by rw [h x hmem]

-- A search in which no test fails is a search for what passes.
theorem anyM_eq_any {xs : List α} {p : α → Bool} (h : ∀ x ∈ xs, test x = .ok (p x)) :
    xs.anyM test = .ok (xs.any p) := by
  induction xs with
  | nil => rfl
  | cons x xs ih =>
      rw [List.forall_mem_cons] at h
      rw [List.anyM_cons, h.1, ih h.2, List.any_cons]
      cases p x <;> rfl

theorem anyM_eq_of_forall₂ {relation : α → β → Prop} {test' : β → Except ε Bool} {xs : List α}
    {ys : List β} (hlists : List.Forall₂ relation xs ys)
    (h : ∀ x y, relation x y → test x = test' y) : xs.anyM test = ys.anyM test' := by
  induction hlists with
  | nil => rfl
  | cons hxy _ ih => rw [List.anyM_cons, List.anyM_cons, h _ _ hxy, ih]

-- A search finds something if an element passes and all before it can be tested.
theorem anyM_eq_true_iff {xs : List α} :
    xs.anyM test = .ok true ↔ ∃ before x after, xs = before ++ x :: after ∧
      (∀ y ∈ before, ∃ b, test y = .ok b) ∧ test x = .ok true := by
  induction xs with
  | nil => simp [pure, Except.pure]
  | cons x xs ih =>
      rw [List.anyM_cons, bind_eq_ok]
      constructor
      · rintro ⟨b, hb, hrest⟩
        cases b with
        | true => exact ⟨[], x, xs, rfl, nofun, hb⟩
        | false =>
            obtain ⟨before, y, after, rfl, hbefore, hy⟩ := ih.mp hrest
            exact ⟨x :: before, y, after, rfl, List.forall_mem_cons.mpr ⟨⟨_, hb⟩, hbefore⟩, hy⟩
      · rintro ⟨before, y, after, hxs, hbefore, hy⟩
        cases before with
        | nil =>
            obtain ⟨rfl, rfl⟩ := List.cons.inj hxs
            exact ⟨true, hy, rfl⟩
        | cons first before =>
            obtain ⟨rfl, rfl⟩ := List.cons.inj hxs
            rw [List.forall_mem_cons] at hbefore
            obtain ⟨b, hb⟩ := hbefore.1
            refine ⟨b, hb, ?_⟩
            cases b with
            | true => rfl
            | false => exact ih.mpr ⟨before, y, after, rfl, hbefore.2, hy⟩

-- A search finds nothing if no element passes, and all can be tested.
theorem anyM_eq_false_iff {xs : List α} :
    xs.anyM test = .ok false ↔ ∀ x ∈ xs, test x = .ok false := by
  induction xs with
  | nil => simp [pure, Except.pure]
  | cons x xs ih =>
      rw [List.anyM_cons, List.forall_mem_cons, ← ih]
      rcases test x with e | (_ | _) <;> simp [bind, Except.bind, pure, Except.pure]

-- A search fails with the error of an element that cannot be tested.
theorem exists_of_anyM_eq_error {xs : List α} {e : ε} (h : xs.anyM test = .error e) :
    ∃ x ∈ xs, test x = .error e := by
  induction xs with
  | nil => cases h
  | cons x xs ih =>
      rw [List.anyM_cons] at h
      cases hx : test x with
      | error e' =>
          rw [hx] at h
          cases h
          exact ⟨x, .head _, hx⟩
      | ok b =>
          rw [hx] at h
          cases b with
          | true => cases h
          | false =>
              obtain ⟨y, hy, htest⟩ := ih h
              exact ⟨y, .tail _ hy, htest⟩

-- A search that finds something also does where a test passes all that another one passes, and can
-- be made of all that the other can be made of.
theorem anyM_mono {test' : α → Except ε Bool} {xs : List α}
    (h : ∀ x ∈ xs, ∀ b, test x = .ok b → ∃ b', test' x = .ok b' ∧ (b = true → b' = true))
    (hany : xs.anyM test = .ok true) : xs.anyM test' = .ok true := by
  induction xs with
  | nil => cases hany
  | cons x xs ih =>
      rw [List.forall_mem_cons] at h
      rw [List.anyM_cons] at hany ⊢
      obtain ⟨b, hb, hrest⟩ := bind_eq_ok.mp hany
      obtain ⟨b', hb', hle⟩ := h.1 b hb
      rw [hb']
      cases b' with
      | true => rfl
      | false =>
          cases b with
          | true => cases hle rfl
          | false => exact ih h.2 hrest

end Search

end Sieve.Outcome
