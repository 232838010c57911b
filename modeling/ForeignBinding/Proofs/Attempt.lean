import ForeignBinding.Failure

/-!
# Outcomes of attempts

When a chain of attempts succeeds, and with which cause it fails whatever the remarks made about it.
-/

namespace ForeignBinding.Attempt

variable {ε δ κ α β : Type}

@[simp]
theorem ok_bind (x : α) (next : α → Attempt ε β) : ((.ok x : Attempt ε α) >>= next) = next x := rfl

@[simp]
theorem error_bind (f : Failure ε) (next : α → Attempt ε β) :
    ((.error f : Attempt ε α) >>= next) = .error f := rfl

theorem bind_eq_ok {a : Attempt ε α} {next : α → Attempt ε β} {y : β} :
    (a >>= next) = .ok y ↔ ∃ x, a = .ok x ∧ next x = .ok y := by
  cases a <;> simp

theorem map_eq_ok {a : Attempt ε α} {f : α → β} {y : β} :
    a.map f = .ok y ↔ ∃ x, a = .ok x ∧ f x = y := by
  cases a <;> simp [Except.map]

theorem noting_eq_ok {a : Attempt ε α} {text : String} {x : α} :
    a.noting text = .ok x ↔ a = .ok x := by
  cases a <;> simp

@[simp]
theorem toOption_noting (a : Attempt ε α) (text : String) :
    (a.noting text).toOption = a.toOption := by
  cases a <;> rfl

theorem under_eq_ok [IsCause ε] {a : Attempt ε α} {cause : δ} {x : α} :
    a.under cause = .ok x ↔ a = .ok x := by
  cases a <;> simp

theorem mapM_eq_ok {f : α → Attempt ε β} {xs : List α} {ys : List β} :
    xs.mapM f = .ok ys ↔ xs.map f = ys.map .ok := by
  induction xs generalizing ys with
  | nil => cases ys <;> simp [pure, Except.pure]
  | cons x xs ih =>
      rw [List.mapM_cons, bind_eq_ok, List.map_cons]
      constructor
      · rintro ⟨y, hy, hrest⟩
        obtain ⟨ys', hys, heq⟩ := bind_eq_ok.1 hrest
        cases heq
        rw [hy, ih.1 hys, List.map_cons]
      · intro h
        obtain ⟨y, ys', rfl, hy, hys⟩ := List.map_eq_cons_iff.1 h.symm
        exact ⟨y, hy.symm, bind_eq_ok.2 ⟨ys', ih.2 hys.symm, rfl⟩⟩

/-- Where reading one item is the inverse of writing it, so is reading a list item by item. -/
theorem mapM_eq_ok_iff {read : α → Attempt ε β} {write : β → α} {p : β → Prop}
    (h : ∀ {x y}, read x = .ok y ↔ p y ∧ x = write y) {xs : List α} {ys : List β} :
    xs.mapM read = .ok ys ↔ (∀ y ∈ ys, p y) ∧ xs = ys.map write := by
  rw [mapM_eq_ok]
  induction xs generalizing ys with
  | nil => cases ys <;> simp
  | cons x xs ih =>
      cases ys with
      | nil => simp
      | cons y ys =>
          simp only [List.map_cons, List.cons.injEq, List.forall_mem_cons, h, ih]
          exact and_and_and_comm

/-- The attempt fails with this cause. -/
def FailsWith (a : Attempt ε α) (cause : ε) : Prop :=
  ∃ f, a = .error f ∧ f.cause = cause

theorem failsWith_fail (cause : ε) : (fail cause : Attempt ε α).FailsWith cause :=
  ⟨_, rfl, rfl⟩

theorem FailsWith.noting {a : Attempt ε α} {cause : ε} (h : a.FailsWith cause) (text : String) :
    (a.noting text).FailsWith cause := by
  obtain ⟨f, rfl, hf⟩ := h
  exact ⟨f.note text, rfl, hf⟩

theorem FailsWith.bind {a : Attempt ε α} {cause : ε} (h : a.FailsWith cause)
    (next : α → Attempt ε β) : (a >>= next).FailsWith cause := by
  obtain ⟨f, rfl, hf⟩ := h
  exact ⟨f, rfl, hf⟩

theorem FailsWith.unique {a : Attempt ε α} {cause cause' : ε} (h : a.FailsWith cause)
    (h' : a.FailsWith cause') : cause = cause' := by
  obtain ⟨f, rfl, rfl⟩ := h
  obtain ⟨g, heq, rfl⟩ := h'
  cases heq
  rfl

theorem failsWith_bind_iff {a : Attempt ε α} {next : α → Attempt ε β} {cause : ε} :
    (a >>= next).FailsWith cause ↔
      a.FailsWith cause ∨ ∃ x, a = .ok x ∧ (next x).FailsWith cause := by
  cases a <;> simp [FailsWith]

theorem failsWith_noting_iff {a : Attempt ε α} {text : String} {cause : ε} :
    (a.noting text).FailsWith cause ↔ a.FailsWith cause := by
  cases a <;> simp [FailsWith, Failure.note]

theorem failsWith_under_iff [IsCause ε] {a : Attempt ε α} {cause cause' : δ} :
    (a.under cause).FailsWith cause' ↔ cause = cause' ∧ ∀ x, a ≠ .ok x := by
  cases a <;> simp [FailsWith, Failure.under]

theorem FailsWith.ne_ok {a : Attempt ε α} {cause : ε} (h : a.FailsWith cause) (x : α) :
    a ≠ .ok x := by
  obtain ⟨f, rfl, _⟩ := h
  simp

section

variable {cause : ε}

/-- There is only one cause with which the attempt can fail. -/
def FailsOnlyWith (a : Attempt ε α) (cause : ε) : Prop :=
  ∀ other, a.FailsWith other → other = cause

theorem failsOnlyWith_ok (x : α) : FailsOnlyWith (.ok x : Attempt ε α) cause :=
  fun _ h => absurd rfl (h.ne_ok x)

theorem failsOnlyWith_fail : FailsOnlyWith (fail cause : Attempt ε α) cause :=
  fun _ h => h.unique (failsWith_fail cause)

theorem failsOnlyWith_under [IsCause δ] (a : Attempt δ α) : (a.under cause).FailsOnlyWith cause :=
  fun _ h => (failsWith_under_iff.1 h).1.symm

theorem FailsOnlyWith.noting {a : Attempt ε α} (h : a.FailsOnlyWith cause) (text : String) :
    (a.noting text).FailsOnlyWith cause :=
  fun other hother => h other (failsWith_noting_iff.1 hother)

theorem FailsOnlyWith.bind {a : Attempt ε α} {next : α → Attempt ε β} (h : a.FailsOnlyWith cause)
    (hnext : ∀ x, (next x).FailsOnlyWith cause) : (a >>= next).FailsOnlyWith cause := by
  intro other hother
  rcases failsWith_bind_iff.1 hother with hother | ⟨x, -, hother⟩
  · exact h other hother
  · exact hnext x other hother

theorem FailsOnlyWith.failsWith_iff {a : Attempt ε α} (h : a.FailsOnlyWith cause) {other : ε} :
    a.FailsWith other ↔ other = cause ∧ ∀ x, a ≠ .ok x := by
  constructor
  · intro hother
    exact ⟨h other hother, hother.ne_ok⟩
  · rintro ⟨rfl, hne⟩
    cases a with
    | ok x => exact absurd rfl (hne x)
    | error f => exact ⟨f, rfl, h f.cause ⟨f, rfl, rfl⟩⟩

end

/-- The result, or of what went wrong only the kind. -/
def outcome (kind : ε → κ) (a : Attempt ε α) : Except κ α :=
  a.mapError (kind ·.cause)

theorem outcome_bind (kind : ε → κ) (a : Attempt ε α) (next : α → Attempt ε β) :
    (a >>= next).outcome kind = a.outcome kind >>= fun x => (next x).outcome kind := by
  cases a <;> rfl

theorem outcome_noting (kind : ε → κ) (a : Attempt ε α) (text : String) :
    (a.noting text).outcome kind = a.outcome kind := by
  cases a <;> rfl

theorem outcome_under [IsCause ε] (kind : ε → κ) (a : Attempt ε α) (cause : δ) :
    (a.under cause).outcome id = (a.outcome kind).mapError fun _ => cause := by
  cases a <;> rfl

/-- Both attempts give corresponding results, or they fail with the same failure. -/
inductive Alike (same : α → α → Prop) : Attempt ε α → Attempt ε α → Prop
  | ok {x y : α} (h : same x y) : Alike same (.ok x) (.ok y)
  | error (f : Failure ε) : Alike same (.error f) (.error f)

end ForeignBinding.Attempt
