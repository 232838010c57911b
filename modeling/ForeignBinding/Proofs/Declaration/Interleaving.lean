import ForeignBinding.Proofs.Declaration.Lifecycle

/-!
# Definitions that overtake each other

Any number of callers may set the least sizes of composites and define them at the same time. A
definition takes several turns: it reads the least size, places its fields one by one, and keeps the
layout. Whatever turns others take in between, the layout that is kept is the one that the
definition would have come to in one go, at the moment when it is kept.
-/

namespace ForeignBinding

open Attempt

namespace Definitions

variable {defs defs' defs'' : Definitions} {c : Composite} {p : Progress}

/-- Every composite has moved on or is as it was. -/
def Grows (defs defs' : Definitions) : Prop :=
  ∀ c, Relation.ReflGen Progress.Move (defs.progress c) (defs'.progress c)

theorem Grows.refl (defs : Definitions) : defs.Grows defs := fun _ => .refl

theorem Grows.trans (h : defs.Grows defs') (h' : defs'.Grows defs'') : defs.Grows defs'' :=
  fun c => IsTrans.trans _ _ _ (h c) (h' c)

private theorem grows_set (h : (defs.progress c).Move p) : defs.Grows (defs.set c p) := by
  intro d
  rw [progress_set]
  split
  · rename_i hd
    rw [hd]
    exact .single h
  · exact .refl

private theorem Grows.extends (h : defs.Grows defs') : defs'.Extends defs := by
  intro c l hl
  have hsame := Progress.eq_of_reflGen (h c) hl
  rw [layout?, hsame]
  exact hl

private theorem Grows.floor_le (h : defs.Grows defs') (hnone : defs'.layout? c = none) :
    (defs.progress c).floor ≤ (defs'.progress c).floor := by
  have hmove := h c
  rw [layout?] at hnone
  generalize defs.progress c = p at hmove
  generalize defs'.progress c = p' at hmove hnone
  cases hmove with
  | refl => exact Nat.le_refl _
  | single hmove =>
      cases hmove with
      | floor n => exact Nat.zero_le n
      | compute l => cases hnone
      | complete le => cases hnone

end Definitions

namespace Progress

private theorem remaining_sublist (p : Progress) : p.remaining.Sublist [.setSize, .define] := by
  cases p with
  | declared => exact List.Sublist.refl _
  | floored n => exact List.sublist_cons_self _ _
  | computed l => exact List.nil_sublist _

private theorem floor_eq_of_reflGen {n : Nat} {p : Progress}
    (h : Relation.ReflGen Move (.floored n) p) (hnone : p.layout? = none) :
    p.floor = n := by
  cases h with
  | refl => rfl
  | single hmove =>
      cases hmove with
      | complete le => cases hnone

end Progress

/-- A call that has begun to define a composite. -/
structure Pending where
  composite : Composite
  resolver : Resolver
  spec : LayoutSpec
  /-- The least size that was in force when the call began. -/
  floor : Nat
  placed : Placement
  /-- The fields that are not placed yet. -/
  rest : List FieldSpec

namespace Pending

def start (c : Composite) (r : Resolver) (spec : LayoutSpec) (floor : Nat) : Pending :=
  ⟨c, r, spec, floor, { kind := c.kind, floor }, spec.fields⟩

def place (q : Pending) (defs : Definitions) (f : FieldSpec) (rest : List FieldSpec) :
    Attempt LayoutError Pending := do
  let placed ← Placement.addSpecs defs q.resolver q.placed [f]
  return { q with placed, rest }

/-- Builds the layout when all fields are placed, and keeps it. -/
def finish (q : Pending) (defs : Definitions) : Attempt LayoutError (Layout × Definitions) := do
  let layout ← q.placed.build
  let progress ← (defs.progress q.composite).commit q.composite q.floor layout
  return (layout, defs.set q.composite progress)

/-- What has been placed is what would be placed now, and the least size that was read is not above
the one in force, unless there is a layout already. -/
structure Valid (q : Pending) (defs : Definitions) : Prop where
  placed : ∃ done, q.spec.fields = done ++ q.rest ∧
    Placement.addSpecs defs q.resolver { kind := q.composite.kind, floor := q.floor } done =
      .ok q.placed
  floor_le : defs.layout? q.composite = none → q.floor ≤ (defs.progress q.composite).floor

variable {q q' : Pending} {defs defs' : Definitions} {c : Composite} {r : Resolver}
  {spec : LayoutSpec} {l : Layout}

private theorem valid_start (defs : Definitions) (c : Composite) (r : Resolver)
    (spec : LayoutSpec) : (start c r spec (defs.progress c).floor).Valid defs :=
  ⟨⟨[], rfl, rfl⟩, fun _ => Nat.le_refl _⟩

private theorem Valid.grow (h : q.Valid defs) (hgrows : defs.Grows defs') : q.Valid defs' := by
  obtain ⟨⟨done, hfields, hadd⟩, hfloor⟩ := h
  refine ⟨⟨done, hfields, Placement.addSpecs_extends hgrows.extends (fun _ _ _ h _ => h) hadd⟩, ?_⟩
  intro hnone
  have hbefore : defs.layout? q.composite = none := by
    cases hl : defs.layout? q.composite with
    | none => rfl
    | some l =>
        rw [hgrows.extends _ l hl] at hnone
        cases hnone
  exact (hfloor hbefore).trans (hgrows.floor_le hnone)

private theorem Valid.place (h : q.Valid defs) {f : FieldSpec} {rest : List FieldSpec}
    (hrest : q.rest = f :: rest) (hplace : q.place defs f rest = .ok q') :
    q'.Valid defs ∧ q'.composite = q.composite ∧ q'.resolver = q.resolver ∧ q'.spec = q.spec := by
  obtain ⟨⟨done, hfields, hadd⟩, hfloor⟩ := h
  obtain ⟨placed, hnext, heq⟩ := bind_eq_ok.1 hplace
  cases heq
  refine ⟨⟨⟨done ++ [f], ?_, ?_⟩, hfloor⟩, rfl, rfl, rfl⟩
  · simp [hfields, hrest]
  · rw [Placement.addSpecs_append]
    exact bind_eq_ok.2 ⟨q.placed, hadd, hnext⟩

/-- What a definition has found when it keeps its layout: the layout is the one that the
specification now gives. -/
theorem Valid.finish (h : q.Valid defs) (hrest : q.rest = [])
    (hfinish : q.finish defs = .ok (l, defs')) :
    defs.layout? q.composite = none ∧
      Layout.compute defs q.resolver q.composite.kind (defs.progress q.composite).floor q.spec =
        .ok l ∧
      defs' = defs.set q.composite (.computed l) := by
  obtain ⟨⟨done, hfields, hadd⟩, hfloor⟩ := h
  obtain ⟨layout, hbuild, hcommit⟩ := bind_eq_ok.1 hfinish
  obtain ⟨progress, hprogress, heq⟩ := bind_eq_ok.1 hcommit
  cases heq
  obtain ⟨hnone, hle, rfl⟩ := Progress.commit_eq_ok hprogress
  -- A larger least size than the one that was read would not have passed the last check, and a
  -- smaller one cannot be in force.
  have hsame : (defs.progress q.composite).floor = q.floor :=
    Nat.le_antisymm hle (hfloor hnone)
  rw [hrest, List.append_nil] at hfields
  refine ⟨hnone, ?_, rfl⟩
  rw [hsame, Layout.compute, hfields]
  exact bind_eq_ok.2 ⟨q.placed, hadd, hbuild⟩

end Pending

/-- The definitions, and the calls that are defining composites. -/
structure Callers where
  definitions : Definitions
  pending : List Pending

/-- What a caller does without being interrupted. -/
inductive Turn where
  | setSize (c : Composite) (size : Nat)
  /-- Begins a definition. -/
  | define (c : Composite) (r : Resolver) (spec : LayoutSpec)
  /-- Goes on with one of the definitions that have begun. -/
  | proceed (i : Nat)

namespace Callers

/-- What has changed the definitions. -/
inductive Event where
  | sized (c : Composite) (size : Nat)
  | committed (c : Composite) (r : Resolver) (spec : LayoutSpec) (l : Layout)

namespace Event

def composite : Event → Composite
  | sized c _ => c
  | committed c _ _ _ => c

def operation : Event → Operation
  | sized .. => .setSize
  | committed .. => .define

end Event

def idle (defs : Definitions) : Callers := ⟨defs, []⟩

def drop (s : Callers) (i : Nat) : Callers :=
  { s with pending := s.pending.eraseIdx i }

/-- Goes on with a definition: places its next field, or keeps its layout. -/
def proceed (s : Callers) (i : Nat) (q : Pending) : Callers × Option Event :=
  match q.rest with
  | f :: rest =>
      match q.place s.definitions f rest with
      | .ok q' => ({ s with pending := s.pending.set i q' }, none)
      | .error _ => (s.drop i, none)
  | [] =>
      match q.finish s.definitions with
      | .ok (l, defs) =>
          ({ s.drop i with definitions := defs },
            some (.committed q.composite q.resolver q.spec l))
      | .error _ => (s.drop i, none)

def turn (s : Callers) : Turn → Callers × Option Event
  | .setSize c size =>
      match s.definitions.setSize c size with
      | .ok defs => ({ s with definitions := defs }, some (.sized c size))
      | .error _ => (s, none)
  | .define c r spec =>
      match (s.definitions.progress c).beginDefine c with
      | .ok floor => ({ s with pending := s.pending ++ [.start c r spec floor] }, none)
      | .error _ => (s, none)
  | .proceed i =>
      match s.pending[i]? with
      | some q => s.proceed i q
      | none => (s, none)

def play (s : Callers) : List Turn → Callers
  | [] => s
  | t :: rest => (s.turn t).1.play rest

def events (s : Callers) : List Turn → List Event
  | [] => []
  | t :: rest => (s.turn t).2.toList ++ (s.turn t).1.events rest

private theorem play_append (s : Callers) (before after : List Turn) :
    s.play (before ++ after) = (s.play before).play after := by
  induction before generalizing s with
  | nil => rfl
  | cons t before ih => exact ih _

/-- What a turn can come to. -/
inductive Takes (s : Callers) : Turn → Callers → Option Event → Prop
  | refused (t : Turn) : Takes s t s none
  | sized {c : Composite} {size : Nat} (declared : s.definitions.progress c = .declared) :
      Takes s (.setSize c size) { s with definitions := s.definitions.set c (.floored size) }
        (some (.sized c size))
  | began (c : Composite) (r : Resolver) (spec : LayoutSpec) :
      Takes s (.define c r spec)
        { s with
          pending := s.pending ++ [.start c r spec (s.definitions.progress c).floor] } none
  | placed {i : Nat} {q q' : Pending} {f : FieldSpec} {rest : List FieldSpec}
      (mem : q ∈ s.pending) (rest_eq : q.rest = f :: rest)
      (done : q.place s.definitions f rest = .ok q') :
      Takes s (.proceed i) { s with pending := s.pending.set i q' } none
  | committed {i : Nat} {q : Pending} {l : Layout} {defs : Definitions} (mem : q ∈ s.pending)
      (rest_eq : q.rest = []) (done : q.finish s.definitions = .ok (l, defs)) :
      Takes s (.proceed i) { s.drop i with definitions := defs }
        (some (.committed q.composite q.resolver q.spec l))
  | dropped (i : Nat) : Takes s (.proceed i) (s.drop i) none

private theorem turn_takes (s : Callers) (t : Turn) : s.Takes t (s.turn t).1 (s.turn t).2 := by
  cases t with
  | setSize c size =>
      rw [turn]
      split
      · rename_i defs hset
        obtain ⟨hdeclared, rfl⟩ := Definitions.setSize_eq_ok hset
        exact .sized hdeclared
      · exact .refused _
  | define c r spec =>
      rw [turn]
      split
      · rename_i floor hbegin
        have hfloor : floor = (s.definitions.progress c).floor := by
          cases hp : s.definitions.progress c with
          | computed l => simp [hp, Progress.beginDefine, fail] at hbegin
          | declared | floored n =>
              rw [hp] at hbegin
              exact (Except.ok.inj hbegin).symm
        rw [hfloor]
        exact .began c r spec
      · exact .refused _
  | proceed i =>
      rw [turn]
      split
      · rename_i q hq
        have hmem : q ∈ s.pending := List.mem_of_getElem? hq
        rw [proceed]
        split
        · rename_i f rest hrest
          split
          · rename_i q' hplace
            exact .placed hmem hrest hplace
          · exact .dropped i
        · rename_i hrest
          split
          · rename_i l defs hfinish
            exact .committed hmem hrest hfinish
          · exact .dropped i
      · exact .refused _

def Valid (s : Callers) : Prop :=
  ∀ q ∈ s.pending, q.Valid s.definitions

/-- An event takes its composite to `p`. -/
structure Event.Effects (x : Event) (defs : Definitions) (p : Progress) : Prop where
  move : (defs.progress x.composite).Move p
  remaining : (x.operation :: p.remaining).Sublist (defs.progress x.composite).remaining
  sized : ∀ c n, x = .sized c n → p = .floored n
  committed : ∀ c r spec l, x = .committed c r spec l →
    Layout.compute defs r c.kind (defs.progress c).floor spec = .ok l ∧ p = .computed l

variable {s s' : Callers} {t : Turn} {e : Option Event} {c : Composite}

private theorem Takes.effects (h : s.Takes t s' e) (hs : s.Valid) :
    (e = none ∧ s'.definitions = s.definitions) ∨
      ∃ x p, e = some x ∧ x.Effects s.definitions p ∧
        s'.definitions = s.definitions.set x.composite p := by
  cases h with
  | refused | began | placed | dropped => exact .inl ⟨rfl, rfl⟩
  | @sized c size declared =>
      refine .inr ⟨_, .floored size, rfl, ⟨?_, ?_, ?_, nofun⟩, rfl⟩
      · rw [Event.composite, declared]
        exact .floor size
      · rw [Event.composite, declared]
        exact List.Sublist.refl _
      · intro d n heq
        cases heq
        rfl
  | @committed i q l defs mem rest_eq done =>
      obtain ⟨hnone, hcompute, rfl⟩ := (hs q mem).finish rest_eq done
      refine .inr ⟨_, .computed l, rfl, ⟨?_, ?_, nofun, ?_⟩, rfl⟩
      · exact Progress.move_computed hnone (Layout.floor_le_of_compute hcompute)
      · exact Progress.define_sublist_remaining hnone
      · intro c r spec l' heq
        cases heq
        exact ⟨hcompute, rfl⟩

private theorem Takes.mem_of_committed {r : Resolver} {spec : LayoutSpec} {l : Layout}
    (h : s.Takes t s' (some (.committed c r spec l))) :
    ∃ q ∈ s.pending, q.composite = c ∧ q.resolver = r ∧ q.spec = spec := by
  cases h with
  | committed mem => exact ⟨_, mem, rfl, rfl, rfl⟩

private theorem Takes.grows (h : s.Takes t s' e) (hs : s.Valid) :
    s.definitions.Grows s'.definitions := by
  obtain ⟨-, hsame⟩ | ⟨x, p, -, hx, hset⟩ := h.effects hs
  · rw [hsame]
    exact .refl _
  · rw [hset]
    exact Definitions.grows_set hx.move

private theorem Takes.valid (h : s.Takes t s' e) (hs : s.Valid) : s'.Valid := by
  have hgrows := h.grows hs
  cases h with
  | refused => exact hs
  | sized => exact fun q hq => (hs q hq).grow hgrows
  | began c r spec =>
      intro q hq
      rcases List.mem_append.1 hq with hq | hq
      · exact hs q hq
      · obtain rfl := List.mem_singleton.1 hq
        exact Pending.valid_start _ c r spec
  | @placed i q q' f rest mem rest_eq done =>
      obtain ⟨hq', -⟩ := (hs q mem).place rest_eq done
      intro p hp
      rcases List.mem_or_eq_of_mem_set hp with hp | rfl
      · exact hs p hp
      · exact hq'
  | committed => exact fun q hq => (hs q (List.mem_of_mem_eraseIdx hq)).grow hgrows
  | dropped => exact fun q hq => hs q (List.mem_of_mem_eraseIdx hq)

/-- Every call that has begun was made in one of these turns. -/
private def Stems (s : Callers) (turns : List Turn) : Prop :=
  ∀ q ∈ s.pending, .define q.composite q.resolver q.spec ∈ turns

private theorem Takes.stems (h : s.Takes t s' e) (hs : s.Valid) {past : List Turn}
    (hpast : s.Stems past) : s'.Stems (past ++ [t]) := by
  have hold : ∀ q ∈ s.pending, .define q.composite q.resolver q.spec ∈ past ++ [t] :=
    fun q hq => List.mem_append_left _ (hpast q hq)
  cases h with
  | refused | sized => exact hold
  | began c r spec =>
      intro q hq
      rcases List.mem_append.1 hq with hq | hq
      · exact hold q hq
      · obtain rfl := List.mem_singleton.1 hq
        exact List.mem_append_right _ (List.mem_singleton_self _)
  | @placed i q q' f rest mem rest_eq done =>
      obtain ⟨-, hcomposite, hresolver, hspec⟩ := (hs q mem).place rest_eq done
      intro p hp
      rcases List.mem_or_eq_of_mem_set hp with hp | rfl
      · exact hold p hp
      · rw [hcomposite, hresolver, hspec]
        exact hold q mem
  | committed | dropped => exact fun q hq => hold q (List.mem_of_mem_eraseIdx hq)

private theorem play_valid (hs : s.Valid) (turns : List Turn) : (s.play turns).Valid := by
  induction turns generalizing s with
  | nil => exact hs
  | cons t rest ih => exact ih ((s.turn_takes t).valid hs)

private theorem play_grows (hs : s.Valid) (turns : List Turn) :
    s.definitions.Grows (s.play turns).definitions := by
  induction turns generalizing s with
  | nil => exact .refl _
  | cons t rest ih =>
      have htakes := s.turn_takes t
      exact (htakes.grows hs).trans (ih (htakes.valid hs))

private theorem play_stems (hs : s.Valid) {past : List Turn} (hpast : s.Stems past)
    (turns : List Turn) : (s.play turns).Stems (past ++ turns) := by
  induction turns generalizing s past with
  | nil =>
      rw [List.append_nil]
      exact hpast
  | cons t rest ih =>
      have htakes := s.turn_takes t
      rw [List.append_cons]
      exact ih (htakes.valid hs) (htakes.stems hs hpast)

def operations (c : Composite) (events : List Event) : List Operation :=
  (events.filter (·.composite = c)).map Event.operation

/-- What is done to a composite is what can be done to it, in the order in which it can. -/
theorem operations_sublist (hs : s.Valid) (turns : List Turn) (c : Composite) :
    (operations c (s.events turns)).Sublist (s.definitions.progress c).remaining := by
  induction turns generalizing s with
  | nil => exact List.nil_sublist _
  | cons t rest ih =>
      have htakes := s.turn_takes t
      have hrest := ih (htakes.valid hs)
      rw [events]
      obtain ⟨hnone, hsame⟩ | ⟨x, p, hx, heffects, hset⟩ := htakes.effects hs
      · rw [hsame] at hrest
        rw [hnone]
        exact hrest
      · rw [hset] at hrest
        rw [hx, Option.toList_some, List.singleton_append]
        exact Progress.cons_sublist_remaining heffects.remaining hrest

private theorem composite_ne_of_computed (hs : s.Valid) {l : Layout}
    (hl : s.definitions.progress c = .computed l) (turns : List Turn) :
    ∀ x ∈ s.events turns, x.composite ≠ c := by
  intro x hx heq
  have hnothing := operations_sublist hs turns c
  rw [hl] at hnothing
  have hmem : x.operation ∈ operations c (s.events turns) :=
    List.mem_map_of_mem (List.mem_filter.2 ⟨hx, by simpa using heq⟩)
  cases hnothing.mem hmem

private theorem reflGen_of_sized (hs : s.Valid) {turns : List Turn} {n : Nat}
    (h : .sized c n ∈ s.events turns) :
    Relation.ReflGen Progress.Move (.floored n) ((s.play turns).definitions.progress c) := by
  induction turns generalizing s with
  | nil => cases h
  | cons t rest ih =>
      have htakes := s.turn_takes t
      rw [events] at h
      rw [play]
      rcases List.mem_append.1 h with hfirst | hrest
      · obtain ⟨hnone, -⟩ | ⟨x, p, hx, heffects, hset⟩ := htakes.effects hs
        · rw [hnone] at hfirst
          cases hfirst
        · rw [hx] at hfirst
          obtain rfl : .sized c n = x := List.mem_singleton.1 hfirst
          obtain rfl : p = .floored n := heffects.sized c n rfl
          have hgrows := play_grows (htakes.valid hs) rest c
          rw [hset, Definitions.progress_set, Event.composite, if_pos rfl] at hgrows
          exact hgrows
      · exact ih (htakes.valid hs) hrest

private theorem valid_idle (defs : Definitions) : (idle defs).Valid := by
  intro q hq
  cases hq

def alone (c : Composite) (r : Resolver) (spec : LayoutSpec) : List Turn :=
  .define c r spec :: List.replicate (spec.fields.length + 1) (.proceed 0)

private theorem play_idle (defs : Definitions) (n : Nat) :
    (idle defs).play (List.replicate n (.proceed 0)) = idle defs := by
  induction n with
  | zero => rfl
  | succ n ih => exact ih

def settle (defs : Definitions) : Attempt LayoutError (Layout × Definitions) → Definitions
  | .ok (_, defs') => defs'
  | .error _ => defs

private theorem play_proceed (defs : Definitions) (q : Pending) :
    (⟨defs, [q]⟩ : Callers).play (List.replicate (q.rest.length + 1) (.proceed 0)) =
      idle (settle defs (Placement.addSpecs defs q.resolver q.placed q.rest >>= fun placed =>
        { q with placed, rest := [] }.finish defs)) := by
  obtain ⟨c, r, spec, floor, placed, rest⟩ := q
  induction rest generalizing placed with
  | nil =>
      change ((⟨defs, [_]⟩ : Callers).proceed 0 ⟨c, r, spec, floor, placed, []⟩).1 = _
      simp only [proceed, Placement.addSpecs, ok_bind]
      cases (⟨c, r, spec, floor, placed, []⟩ : Pending).finish defs <;> rfl
  | cons f rest ih =>
      change ((⟨defs, [_]⟩ : Callers).proceed 0 ⟨c, r, spec, floor, placed, f :: rest⟩).1.play
        (List.replicate (rest.length + 1) (.proceed 0)) = _
      have happend : Placement.addSpecs defs r placed (f :: rest) =
          Placement.addSpecs defs r placed [f] >>= fun p' => Placement.addSpecs defs r p' rest :=
        Placement.addSpecs_append [f] rest
      simp only [proceed, Pending.place, happend]
      cases Placement.addSpecs defs r placed [f] with
      | error g => exact play_idle defs _
      | ok placed' => exact ih placed'

/-- A definition that nobody interrupts comes out as one that is made at once. -/
theorem play_alone (defs : Definitions) (c : Composite) (r : Resolver) (spec : LayoutSpec) :
    (idle defs).play (alone c r spec) = idle (settle defs (defs.define r c spec)) := by
  change ((idle defs).turn (.define c r spec)).1.play
    (List.replicate (spec.fields.length + 1) (.proceed 0)) = _
  rw [turn, Definitions.define]
  simp only [idle]
  cases (defs.progress c).beginDefine c with
  | error g => exact play_idle defs _
  | ok floor =>
      refine (play_proceed defs (.start c r spec floor)).trans (congrArg idle ?_)
      rw [ok_bind, Layout.compute]
      simp only [Pending.start]
      cases Placement.addSpecs defs r { kind := c.kind, floor } spec.fields with
      | error g => rfl
      | ok placed =>
          simp only [ok_bind, Pending.finish]
          cases placed.build <;> rfl

/-- However the turns of any number of callers come one after the other, a composite gets at most
one least size, and then at most one layout, after which nothing changes it. The layout is the one
that a specification with which some call has begun gives with the definitions at the moment when
the layout is kept, and with the least size in force by then. So it is no smaller than a least size
that was set at any time before. -/
theorem play_serializable (defs : Definitions) (c : Composite) :
    (∀ turns, (operations c ((idle defs).events turns)).Sublist [.setSize, .define]) ∧
      (∀ before after l, ((idle defs).play before).definitions.progress c = .computed l →
        ((idle defs).play (before ++ after)).definitions.progress c = .computed l ∧
          ∀ x ∈ ((idle defs).play before).events after, x.composite ≠ c) ∧
      ∀ before t r spec l,
        (((idle defs).play before).turn t).2 = some (.committed c r spec l) →
          let found := ((idle defs).play before).definitions
          .define c r spec ∈ before ∧
            found.layout? c = none ∧
            Layout.compute found r c.kind (found.progress c).floor spec = .ok l ∧
            ((idle defs).play (before ++ [t])).definitions.progress c = .computed l ∧
            ∀ n, .sized c n ∈ (idle defs).events before →
              (found.progress c).floor = n ∧ n ≤ l.size := by
  have hidle := valid_idle defs
  refine ⟨?_, ?_, ?_⟩
  · intro turns
    exact (operations_sublist hidle turns c).trans (Progress.remaining_sublist _)
  · intro before after l hl
    have hvalid := play_valid hidle before
    have hgrows := play_grows hvalid after c
    rw [hl] at hgrows
    rw [play_append]
    exact ⟨Progress.eq_of_reflGen hgrows rfl, composite_ne_of_computed hvalid hl after⟩
  · intro before t r spec l hcommit found
    have hvalid := play_valid hidle before
    have htakes := ((idle defs).play before).turn_takes t
    obtain ⟨hquiet, -⟩ | ⟨x, p, hx, heffects, hset⟩ := htakes.effects hvalid
    · cases hquiet.symm.trans hcommit
    · obtain rfl : x = .committed c r spec l := Option.some.inj (hx.symm.trans hcommit)
      obtain ⟨hcompute, rfl⟩ := heffects.committed c r spec l rfl
      have hnone : found.layout? c = none := heffects.move.layout?_eq_none
      have hstems : ((idle defs).play before).Stems ([] ++ before) :=
        play_stems hidle (fun q hq => nomatch hq) before
      rw [hcommit] at htakes
      obtain ⟨q, hq, rfl, rfl, rfl⟩ := htakes.mem_of_committed
      refine ⟨hstems q hq, hnone, hcompute, ?_, ?_⟩
      · rw [play_append]
        change (((idle defs).play before).turn t).1.definitions.progress q.composite = _
        rw [hset]
        exact if_pos rfl
      · intro n hn
        have hfloor : (found.progress q.composite).floor = n :=
          Progress.floor_eq_of_reflGen (reflGen_of_sized hidle hn) hnone
        exact ⟨hfloor, hfloor ▸ Layout.floor_le_of_compute hcompute⟩

end Callers

-- The least size is set while the first of three definitions is under way, which is refused for
-- it when it would keep its layout. The others begin later. The second keeps its layout, and the
-- third comes too late.
namespace Sample

def racing : List Turn :=
  [.define packet resolver pointSpec, .proceed 0, .setSize packet 40,
    .define packet resolver pointSpec, .define packet resolver (.keyed []), .proceed 0, .proceed 0,
    .proceed 0, .setSize packet 50, .proceed 0]

def late : List Turn := [.proceed 0, .setSize packet 60, .define packet resolver pointSpec]

def racers : Callers := Callers.idle declared

def raced : Callers := racers.play racing

def racedLayout : Layout := { pointLayout with size := 40 }

private theorem events_racing : racers.events racing = [.sized packet 40] := rfl

private theorem turn_raced : (raced.turn (.proceed 0)).2 =
    some (.committed packet resolver pointSpec racedLayout) := rfl

end Sample

theorem Callers.play_serializable_racing :
    .sized Sample.packet 40 ∈ Sample.racers.events Sample.racing ∧
      (Sample.raced.turn (.proceed 0)).2 =
        some (.committed Sample.packet Sample.resolver Sample.pointSpec Sample.racedLayout) ∧
      (Sample.raced.definitions.progress Sample.packet).floor = 40 ∧
      Layout.compute Sample.raced.definitions Sample.resolver .struct 40 Sample.pointSpec =
        .ok Sample.racedLayout ∧
      (Sample.racers.play (Sample.racing ++ [.proceed 0] ++ Sample.late)).definitions.progress
        Sample.packet = .computed Sample.racedLayout ∧
      (operations Sample.packet (Sample.racers.events
        (Sample.racing ++ [.proceed 0] ++ Sample.late))).Sublist [.setSize, .define] := by
  have hsized : .sized Sample.packet 40 ∈ Sample.racers.events Sample.racing := by
    rw [Sample.events_racing]
    exact List.mem_singleton_self _
  obtain ⟨honce, hkept, hcommitted⟩ := play_serializable Sample.declared Sample.packet
  obtain ⟨-, -, hcompute, hcomputed, hfloors⟩ :=
    hcommitted Sample.racing (.proceed 0) _ _ _ Sample.turn_raced
  obtain ⟨hfloor, -⟩ := hfloors 40 hsized
  rw [hfloor] at hcompute
  obtain ⟨hlast, -⟩ := hkept _ Sample.late _ hcomputed
  exact ⟨hsized, Sample.turn_raced, hfloor, hcompute, hlast, honce _⟩

end ForeignBinding
