import ForeignBinding.Type.Descriptor
import Mathlib.Data.List.Forall2
import Mathlib.Logic.Relation

/-!
# Signatures as they are shown

A callback is shown with its parameters in brackets, then its result, then the mark of its
convention. Nothing closes the result. So where a callback returns a callback the marks of both
stand together at the end, and of a single mark nothing tells whose it is. This is all that is
lost: without composites, what is shown alike differs only in which callback along a chain of
results has which convention.
-/

namespace ForeignBinding

private theorem Prim.display_injective : Function.Injective display := by
  intro p q
  cases p <;> cases q <;> simp [display]

private theorem Convention.mark_comm (c c' : Convention) :
    c.mark ++ c'.mark = c'.mark ++ c.mark := by
  cases c <;> cases c' <;> rfl

namespace Descriptor

/-- The descriptor is built from primitives and callbacks only. -/
inductive IsBasic : Descriptor → Prop
  | prim (p : Prim) : IsBasic (.prim p)
  | callback {params : List Descriptor} {ret : Descriptor} (convention : Convention)
      (params_basic : ∀ d ∈ params, IsBasic d) (ret_basic : IsBasic ret) :
      IsBasic (.callback params ret convention)

/-- Somewhere a callback and the callback it returns exchange their conventions. -/
inductive Swaps : Descriptor → Descriptor → Prop
  | here (params inner : List Descriptor) (ret : Descriptor) (c c' : Convention) :
      Swaps (.callback params (.callback inner ret c) c')
        (.callback params (.callback inner ret c') c)
  | param {d e : Descriptor} (before after : List Descriptor) (ret : Descriptor) (c : Convention)
      (h : Swaps d e) :
      Swaps (.callback (before ++ d :: after) ret c) (.callback (before ++ e :: after) ret c)
  | ret {r s : Descriptor} (params : List Descriptor) (c : Convention) (h : Swaps r s) :
      Swaps (.callback params r c) (.callback params s c)

/-- Any number of exchanges leads from one descriptor to the other. -/
def Rearranges : Descriptor → Descriptor → Prop :=
  Relation.ReflTransGen Swaps

variable {d e r s : Descriptor} {ps qs : List Descriptor} {c : Convention}

theorem Swaps.symm (h : d.Swaps e) : e.Swaps d := by
  induction h with
  | here params inner ret c c' => exact .here params inner ret c' c
  | param before after ret c _ ih => exact .param before after ret c ih
  | ret params c _ ih => exact .ret params c ih

namespace Rearranges

theorem refl (d : Descriptor) : d.Rearranges d :=
  Relation.ReflTransGen.refl

theorem trans {f : Descriptor} (h : d.Rearranges e) (h' : e.Rearranges f) : d.Rearranges f :=
  Relation.ReflTransGen.trans h h'

theorem symm (h : d.Rearranges e) : e.Rearranges d := by
  induction h with
  | refl => exact refl d
  | tail _ hstep ih => exact Relation.ReflTransGen.head hstep.symm ih

private theorem ret (h : r.Rearranges s) : (callback ps r c).Rearranges (.callback ps s c) := by
  induction h with
  | refl => exact refl _
  | tail _ hstep ih => exact Relation.ReflTransGen.tail ih (.ret ps c hstep)

private theorem param (before after : List Descriptor) (h : d.Rearranges e) :
    (callback (before ++ d :: after) r c).Rearranges (.callback (before ++ e :: after) r c) := by
  induction h with
  | refl => exact refl _
  | tail _ hstep ih => exact Relation.ReflTransGen.tail ih (.param before after r c hstep)

private theorem params (h : List.Forall₂ Rearranges ps qs) (before : List Descriptor) :
    (callback (before ++ ps) r c).Rearranges (.callback (before ++ qs) r c) := by
  induction h generalizing before with
  | nil => exact refl _
  | @cons d e ps qs hd _ ih =>
      have hrest := ih (before ++ [e])
      rw [List.append_assoc, List.append_assoc] at hrest
      exact (param before ps hd).trans hrest

private theorem congr (hparams : List.Forall₂ Rearranges ps qs) (hret : r.Rearranges s) :
    (callback ps r c).Rearranges (.callback qs s c) :=
  (params hparams []).trans hret.ret

end Rearranges

private theorem display_callback (ps : List Descriptor) (r : Descriptor) (c : Convention) :
    (callback ps r c).display =
      "callback(" ++ ", ".intercalate (ps.map display) ++ "): " ++ r.display ++ c.mark := by
  rw [display, displayAll_eq_map]

private theorem Swaps.display_eq (h : d.Swaps e) : d.display = e.display := by
  induction h with
  | here params inner ret c c' =>
      simp only [display_callback, String.append_assoc, c.mark_comm c']
  | param before after ret c _ ih =>
      simp only [display_callback, List.map_append, List.map_cons, ih]
  | ret params c _ ih => simp only [display_callback, ih]

private theorem Rearranges.display_eq (h : d.Rearranges e) : d.display = e.display := by
  induction h with
  | refl => rfl
  | tail _ hstep ih => exact ih.trans hstep.display_eq

/-- The signature of a callback. -/
def signature? : Descriptor → Option Signature
  | .callback params ret convention => some ⟨params, ret, convention⟩
  | _ => none

private theorem Swaps.exists_signature (h : d.Swaps e) : ∃ t : Signature, e = t.toDescriptor := by
  cases h with
  | here params inner ret c c' => exact ⟨⟨params, .callback inner ret c', c⟩, rfl⟩
  | @param _ e before after ret c => exact ⟨⟨before ++ e :: after, ret, c⟩, rfl⟩
  | @ret _ s params c => exact ⟨⟨params, s, c⟩, rfl⟩

private theorem Swaps.signature_eq (h : d.Swaps e) :
    d.signature?.map Signature.display = e.signature?.map Signature.display := by
  cases h with
  | here params inner ret c c' =>
      simp only [signature?, Option.map_some, Signature.display, display_callback,
        String.append_assoc, c.mark_comm c']
  | param before after ret c h =>
      simp only [signature?, Option.map_some, Signature.display, List.map_append, List.map_cons,
        h.display_eq]
  | ret params c h => simp only [signature?, Option.map_some, Signature.display, h.display_eq]

private theorem Rearranges.signature_eq (h : d.Rearranges e) :
    d.signature?.map Signature.display = e.signature?.map Signature.display := by
  induction h with
  | refl => rfl
  | tail _ hstep ih => exact ih.trans hstep.signature_eq

/-- How many marks stand at the end of the descriptor's text. -/
def marks : Descriptor → Nat
  | .callback _ ret .standard => ret.marks
  | .callback _ ret .stdcall => ret.marks + 1
  | _ => 0

/-- The descriptor with marks on the first callbacks along the chain of results and on no others. -/
def gather : Nat → Descriptor → Descriptor
  | 0, .callback params ret _ => .callback params (gather 0 ret) .standard
  | n + 1, .callback params ret _ => .callback params (gather n ret) .stdcall
  | _, .prim p => .prim p
  | _, .composite c => .composite c
  | _, .byValue c => .byValue c

private theorem marks_callback (ps : List Descriptor) (r : Descriptor) (c : Convention) :
    (callback ps r c).marks = r.marks + if c = .stdcall then 1 else 0 := by
  cases c <;> rfl

private theorem rearranges_outward {n : Nat} (h : n < r.marks) :
    (callback ps (gather (n + 1) r) .standard).Rearranges (.callback ps (gather n r) .stdcall) := by
  -- the result gives its mark away, and takes the next one further in
  induction n generalizing ps r with
  | zero =>
      cases r with
      | callback qs s c => exact .single (.here ps qs (gather 0 s) .stdcall .standard)
      | _ => exact absurd h (Nat.not_lt_zero _)
  | succ n ih =>
      cases r with
      | callback qs s c =>
          have hs : n < s.marks := by
            rw [marks_callback] at h
            split at h <;> omega
          exact .head (.here ps qs (gather (n + 1) s) .stdcall .standard) (ih hs).ret
      | _ => exact absurd h (Nat.not_lt_zero _)

/-- All marks can be moved outward. -/
theorem rearranges_gather : (d : Descriptor) → d.Rearranges (gather d.marks d)
  | .prim p => .refl _
  | .composite c => .refl _
  | .byValue c => .refl _
  | .callback ps r .stdcall => r.rearranges_gather.ret
  | .callback ps r .standard => by
      refine r.rearranges_gather.ret.trans ?_
      rw [marks]
      cases hn : r.marks with
      | zero => exact .refl _
      | succ n => exact rearranges_outward (by omega)

/-- The text of a descriptor without the marks at its end. -/
private def stem : Descriptor → String
  | .callback params ret _ =>
      "callback(" ++ ", ".intercalate (params.map display) ++ "): " ++ ret.stem
  | d => d.display

/-- The marks at the end of a text. -/
private def closing (n : Nat) : List Char :=
  (List.replicate n Convention.stdcall.mark.toList).flatten

private theorem closing_mark (n : Nat) (c : Convention) :
    closing n ++ c.mark.toList = closing (n + if c = .stdcall then 1 else 0) := by
  cases c with
  | standard => simp [Convention.mark]
  | stdcall => simp [closing, List.replicate_succ']

private theorem toList_display :
    (d : Descriptor) → d.display.toList = d.stem.toList ++ closing d.marks
  | .prim _ | .composite _ | .byValue _ => (List.append_nil _).symm
  | .callback ps r c => by
      rw [display_callback, marks_callback, ← closing_mark, stem]
      simp only [String.toList_append, r.toList_display, List.append_assoc]

private theorem toList_stem_callback (ps : List Descriptor) (r : Descriptor) (c : Convention)
    (x : List Char) : (callback ps r c).stem.toList ++ x =
      "callback".toList ++ '(' :: ((", ".intercalate (ps.map display)).toList ++
        ')' :: (": ".toList ++ (r.stem.toList ++ x))) := by
  rw [stem]
  simp only [String.toList_append, List.append_assoc]
  rfl

/-- A character of a primitive's name. -/
private def isWord (c : Char) : Bool :=
  c.isAlphanum || c == '_'

/-- No word goes on here. -/
private def Stops (x : List Char) : Prop :=
  ∀ c ∈ x.head?, isWord c = false

/-- Neither a word nor marks go on here. -/
private def Ends (x : List Char) : Prop :=
  ∀ c ∈ x.head?, isWord c = false ∧ c ≠ ' '

private theorem Ends.stops {x : List Char} (h : Ends x) : Stops x :=
  fun c hc => (h c hc).1

private theorem ends_nil : Ends [] :=
  fun c hc => by cases hc

private theorem stops_closing {x : List Char} (h : Ends x) (n : Nat) : Stops (closing n ++ x) := by
  cases n with
  | zero => exact h.stops
  | succ n =>
      intro c hc
      obtain rfl : ' ' = c := Option.some.inj hc
      decide

private theorem closing_succ_append (n : Nat) (x : List Char) :
    closing (n + 1) ++ x = Convention.stdcall.mark.toList ++ (closing n ++ x) := by
  rw [closing, List.replicate_succ, List.flatten_cons, List.append_assoc]
  rfl

private theorem Ends.ne_closing {x : List Char} (h : Ends x) (n : Nat) (y : List Char) :
    x ≠ closing (n + 1) ++ y := by
  rintro rfl
  exact (h ' ' rfl).2 rfl

private theorem closing_append_inj {m n : Nat} {x y : List Char} (hx : Ends x) (hy : Ends y)
    (h : closing m ++ x = closing n ++ y) : m = n ∧ x = y := by
  induction m generalizing n with
  | zero =>
      cases n with
      | zero => exact ⟨rfl, h⟩
      | succ n => exact absurd h (hx.ne_closing n y)
  | succ m ih =>
      cases n with
      | zero => exact absurd h.symm (hy.ne_closing m x)
      | succ n =>
          rw [closing_succ_append, closing_succ_append] at h
          obtain ⟨rfl, hxy⟩ := ih (List.append_cancel_left h)
          exact ⟨rfl, hxy⟩

private theorem takeWhile_isWord {w x : List Char} (hw : w.all isWord) (hx : Stops x) :
    (w ++ x).takeWhile isWord = w := by
  rw [List.takeWhile_append_of_pos (List.all_eq_true.1 hw)]
  cases x with
  | nil => simp
  | cons c x => simp [hx c rfl]

private theorem word_append_inj {v w x y : List Char} (hv : v.all isWord) (hw : w.all isWord)
    (hx : Stops x) (hy : Stops y) (h : v ++ x = w ++ y) : v = w ∧ x = y := by
  have hword : v = w := by
    rw [← takeWhile_isWord hv hx, h, takeWhile_isWord hw hy]
  subst hword
  exact ⟨rfl, List.append_cancel_left h⟩

private theorem isWord_display (p : Prim) : p.display.toList.all isWord := by
  cases p <;> rfl

/-- Whatever follows, the text of the descriptor shows where it ends, and all of the descriptor but
for the places of the marks. -/
private def Legible (d : Descriptor) : Prop :=
  ∀ (e : Descriptor) (x y : List Char), e.IsBasic → Stops x → Stops y →
    d.stem.toList ++ x = e.stem.toList ++ y →
    (∀ n, (gather n d).Rearranges (gather n e)) ∧ x = y

private theorem rearranges_of_gather (h : ∀ n, (gather n d).Rearranges (gather n e))
    (hmarks : d.marks = e.marks) : d.Rearranges e := by
  have hgathered : (gather d.marks d).Rearranges (gather e.marks e) := hmarks ▸ h d.marks
  exact d.rearranges_gather.trans (hgathered.trans e.rearranges_gather.symm)

private theorem gather_congr {c c' : Convention} (hparams : List.Forall₂ Rearranges ps qs)
    (hret : ∀ n, (gather n r).Rearranges (gather n s)) (n : Nat) :
    (gather n (callback ps r c)).Rearranges (gather n (callback qs s c')) := by
  cases n with
  | zero => exact .congr hparams (hret 0)
  | succ n => exact .congr hparams (hret n)

private theorem Legible.display_inj {x y : List Char} (h : d.Legible) (he : e.IsBasic) (hx : Ends x)
    (hy : Ends y) (heq : d.display.toList ++ x = e.display.toList ++ y) :
    d.Rearranges e ∧ x = y := by
  rw [toList_display, toList_display, List.append_assoc, List.append_assoc] at heq
  obtain ⟨hgather, hrest⟩ := h e _ _ he (stops_closing hx d.marks) (stops_closing hy e.marks) heq
  obtain ⟨hmarks, hxy⟩ := closing_append_inj hx hy hrest
  exact ⟨rearranges_of_gather hgather hmarks, hxy⟩

/-- What follows the first of some parameters. -/
def listed : List Descriptor → List Char
  | [] => []
  | d :: ds => ", ".toList ++ (d.display.toList ++ listed ds)

private theorem toList_parameters (d : Descriptor) (ds : List Descriptor) :
    (", ".intercalate ((d :: ds).map display)).toList = d.display.toList ++ listed ds := by
  induction ds generalizing d with
  | nil => simp [listed]
  | cons e ds ih =>
      rw [List.map_cons, List.map_cons, String.intercalate_cons_cons, String.toList_append,
        String.toList_append, ← List.map_cons, ih, listed, List.append_assoc]

private theorem ends_listed (ds : List Descriptor) (x : List Char) :
    Ends (listed ds ++ ')' :: x) := by
  intro c hc
  cases ds with
  | nil =>
      obtain rfl : ')' = c := Option.some.inj hc
      decide
  | cons d ds =>
      obtain rfl : ',' = c := Option.some.inj hc
      decide

private theorem listed_append_inj {x y : List Char} (hps : ∀ p ∈ ps, p.Legible)
    (hqs : ∀ q ∈ qs, q.IsBasic) (h : listed ps ++ ')' :: x = listed qs ++ ')' :: y) :
    List.Forall₂ Rearranges ps qs ∧ x = y := by
  induction ps generalizing qs with
  | nil =>
      cases qs with
      | nil => exact ⟨.nil, List.tail_eq_of_cons_eq h⟩
      | cons q qs => exact absurd (List.head_eq_of_cons_eq h) (by decide)
  | cons p ps ih =>
      cases qs with
      | nil => exact absurd (List.head_eq_of_cons_eq h) (by decide)
      | cons q qs =>
          rw [listed, listed, List.append_assoc, List.append_assoc, List.append_assoc,
            List.append_assoc] at h
          obtain ⟨hpq, hrest⟩ := Legible.display_inj (hps p List.mem_cons_self)
            (hqs q List.mem_cons_self) (ends_listed ps x) (ends_listed qs y)
            (List.append_cancel_left h)
          obtain ⟨hall, hxy⟩ := ih (fun p hp => hps p (List.mem_cons_of_mem _ hp))
            (fun q hq => hqs q (List.mem_cons_of_mem _ hq)) hrest
          exact ⟨.cons hpq hall, hxy⟩

private theorem IsBasic.exists_cons (h : d.IsBasic) :
    ∃ c w, d.display.toList = c :: w ∧ isWord c := by
  cases h with
  | prim p =>
      cases hw : p.display.toList with
      | nil => cases p <;> exact absurd hw (by decide)
      | cons c w =>
          have hall := isWord_display p
          rw [hw, List.all_cons, Bool.and_eq_true] at hall
          exact ⟨c, w, hw, hall.1⟩
  | @callback ps r c _ _ =>
      exact ⟨'c', _, (toList_display _).trans (toList_stem_callback ps r c _), by decide⟩

private theorem parameters_append_ne {x y : List Char} (hd : d.IsBasic) (ds : List Descriptor) :
    (", ".intercalate ((d :: ds).map display)).toList ++ x ≠ ')' :: y := by
  intro heq
  obtain ⟨c, w, hw, hc⟩ := hd.exists_cons
  rw [toList_parameters, hw] at heq
  obtain rfl : c = ')' := List.head_eq_of_cons_eq heq
  exact absurd hc (by decide)

private theorem parameters_append_inj {x y : List Char} (hps : ∀ p ∈ ps, p.IsBasic)
    (hlegible : ∀ p ∈ ps, p.Legible) (hqs : ∀ q ∈ qs, q.IsBasic)
    (h : (", ".intercalate (ps.map display)).toList ++ ')' :: x =
      (", ".intercalate (qs.map display)).toList ++ ')' :: y) :
    List.Forall₂ Rearranges ps qs ∧ x = y := by
  cases ps with
  | nil =>
      cases qs with
      | nil => exact ⟨.nil, List.tail_eq_of_cons_eq h⟩
      | cons q qs => exact absurd h.symm (parameters_append_ne (hqs q List.mem_cons_self) qs)
  | cons p ps =>
      cases qs with
      | nil => exact absurd h (parameters_append_ne (hps p List.mem_cons_self) ps)
      | cons q qs =>
          -- a comma in front makes further parameters of all of them
          refine listed_append_inj hlegible hqs ?_
          rw [listed, listed, ← toList_parameters, ← toList_parameters, List.append_assoc,
            List.append_assoc, h]

private theorem prim_stem_ne_callback {p : Prim} {x y : List Char} (hx : Stops x) :
    (prim p).stem.toList ++ x ≠ (callback ps r c).stem.toList ++ y := by
  intro h
  rw [toList_stem_callback] at h
  have hbracket : ∀ z, Stops ('(' :: z) := fun z c hc => by
    obtain rfl : '(' = c := Option.some.inj hc
    decide
  have hword := (word_append_inj (isWord_display p) rfl hx (hbracket _) h).1
  cases p <;> exact absurd hword (by decide)

private theorem IsBasic.legible (h : d.IsBasic) : d.Legible := by
  -- the word in front tells primitives from each other and from callbacks
  induction h with
  | prim p =>
      intro e x y he hx hy h
      cases he with
      | prim q =>
          obtain ⟨hword, hxy⟩ := word_append_inj (isWord_display p) (isWord_display q) hx hy h
          obtain rfl := Prim.display_injective (String.toList_inj.1 hword)
          exact ⟨fun _ => .refl _, hxy⟩
      | callback => exact absurd h (prim_stem_ne_callback hx)
  | @callback ps r c hps _ ihparams ihret =>
      intro e x y he hx hy h
      cases he with
      | prim q => exact absurd h.symm (prim_stem_ne_callback hy)
      | @callback qs s _ hqs hs =>
          rw [toList_stem_callback, toList_stem_callback] at h
          obtain ⟨hparams, hrest⟩ := parameters_append_inj hps ihparams hqs
            (List.tail_eq_of_cons_eq (List.append_cancel_left h))
          obtain ⟨hret, hxy⟩ := ihret s x y hs hx hy (List.append_cancel_left hrest)
          exact ⟨gather_congr hparams hret, hxy⟩

/-- No callback in the descriptor returns a callback of another convention. -/
inductive IsUniform : Descriptor → Prop
  | prim (p : Prim) : IsUniform (.prim p)
  | callback {params : List Descriptor} {ret : Descriptor} (convention : Convention)
      (params_uniform : ∀ d ∈ params, IsUniform d) (ret_uniform : IsUniform ret)
      (same : ∀ inner r c, ret = .callback inner r c → c = convention) :
      IsUniform (.callback params ret convention)

private theorem Swaps.eq_of_isUniform (h : d.Swaps e) (hd : d.IsUniform) : d = e := by
  induction h with
  | here params inner ret c c' =>
      cases hd with
      | callback _ _ _ same =>
          obtain rfl := same inner ret c rfl
          rfl
  | @param d e before after ret c _ ih =>
      cases hd with
      | callback _ params_uniform _ _ => rw [ih (params_uniform d (by simp))]
  | ret params c _ ih =>
      cases hd with
      | callback _ _ ret_uniform _ => rw [ih ret_uniform]

private theorem Swaps.isBasic (h : d.Swaps e) (hd : d.IsBasic) : e.IsBasic := by
  induction h with
  | here params inner ret c c' =>
      obtain _ | ⟨_, hparams, _ | ⟨_, hinner, hret⟩⟩ := hd
      exact .callback c hparams (.callback c' hinner hret)
  | @param d e before after ret c _ ih =>
      obtain _ | ⟨_, hparams, hret⟩ := hd
      refine .callback c (fun q hq => ?_) hret
      rcases List.mem_append.1 hq with hbefore | hafter
      · exact hparams q (List.mem_append_left _ hbefore)
      · rcases List.mem_cons.1 hafter with rfl | hlast
        · exact ih (hparams d (by simp))
        · exact hparams q (by simp [hlast])
  | ret params c _ ih =>
      obtain _ | ⟨_, hparams, hret⟩ := hd
      exact .callback c hparams (ih hret)

private theorem IsBasic.isUniform_iff (hd : d.IsBasic) : d.IsUniform ↔ ∀ e, d.Swaps e → d = e := by
  refine ⟨fun h e hswap => hswap.eq_of_isUniform h, fun h => ?_⟩
  induction hd with
  | prim p => exact .prim p
  | @callback ps r c _ _ ihparams ihret =>
      refine .callback c (fun p hp => ihparams p hp fun q hq => ?_) (ihret fun s hs => ?_) ?_
      · obtain ⟨before, after, rfl⟩ := List.append_of_mem hp
        have heq := (Descriptor.callback.inj (h _ (.param before after r c hq))).1
        exact List.head_eq_of_cons_eq (List.append_cancel_left heq)
      · exact (Descriptor.callback.inj (h _ (.ret ps c hs))).2.1
      · rintro inner s c' rfl
        exact (Descriptor.callback.inj (h _ (.here ps inner s c' c))).2.2.symm

private theorem Rearranges.eq_of_isUniform (h : d.Rearranges e) (hd : d.IsUniform) : d = e := by
  induction h with
  | refl => rfl
  | tail _ hstep ih =>
      subst ih
      exact hstep.eq_of_isUniform hd

/-- Descriptors without composites are shown alike if and only if exchanges of conventions lead
from one to the other. -/
theorem IsBasic.display_eq_iff (hd : d.IsBasic) (he : e.IsBasic) :
    d.display = e.display ↔ d.Rearranges e := by
  refine ⟨fun h => ?_, Rearranges.display_eq⟩
  have hchars : d.display.toList ++ [] = e.display.toList ++ [] := by rw [h]
  exact (hd.legible.display_inj he ends_nil ends_nil hchars).1

private theorem IsBasic.told_iff (hd : d.IsBasic) :
    (∀ e : Descriptor, e.IsBasic → d.display = e.display → d = e) ↔ d.IsUniform := by
  constructor
  · intro h
    exact hd.isUniform_iff.2 fun e hswap => h e (hswap.isBasic hd) hswap.display_eq
  · intro h e he heq
    exact ((hd.display_eq_iff he).1 heq).eq_of_isUniform h

end Descriptor

namespace Signature

open Descriptor

variable {s t : Signature}

private theorem toList_display (s : Signature) : s.display.toList =
    '(' :: ((", ".intercalate (s.params.map Descriptor.display)).toList ++
      ')' :: (" -> ".toList ++ (s.ret.stem.toList ++ (closing s.toDescriptor.marks ++ [])))) := by
  rw [toDescriptor, marks_callback, ← closing_mark, List.append_nil,
    ← List.append_assoc s.ret.stem.toList, ← Descriptor.toList_display, display]
  simp only [String.toList_append, List.append_assoc]
  rfl

private theorem display_eq_iff (hs : s.toDescriptor.IsBasic) (ht : t.toDescriptor.IsBasic) :
    s.display = t.display ↔ s.toDescriptor.Rearranges t.toDescriptor := by
  refine ⟨fun h => ?_, fun h => Option.some.inj h.signature_eq⟩
  have hchars := congrArg String.toList h
  rw [toList_display, toList_display] at hchars
  cases hs with
  | callback _ hps hr =>
      cases ht with
      | callback _ hqs hr' =>
          obtain ⟨hparams, hrest⟩ := parameters_append_inj hps (fun p hp => (hps p hp).legible) hqs
            (List.tail_eq_of_cons_eq hchars)
          -- of the result's marks and the signature's own only the number is left
          obtain ⟨hret, hclosing⟩ := hr.legible t.ret _ _ hr' (stops_closing ends_nil _)
            (stops_closing ends_nil _) (List.append_cancel_left hrest)
          obtain ⟨hmarks, -⟩ := closing_append_inj ends_nil ends_nil hclosing
          exact rearranges_of_gather (gather_congr hparams hret) hmarks

private theorem eq_of_toDescriptor (h : s.toDescriptor = t.toDescriptor) : s = t := by
  obtain ⟨ps, r, c⟩ := s
  obtain ⟨qs, r', c'⟩ := t
  obtain ⟨rfl, rfl, rfl⟩ := Descriptor.callback.inj h
  rfl

private theorem told_iff (hs : s.toDescriptor.IsBasic) :
    (∀ t : Signature, t.toDescriptor.IsBasic → s.display = t.display → s = t) ↔
      s.toDescriptor.IsUniform := by
  constructor
  · intro h
    refine hs.isUniform_iff.2 fun e hswap => ?_
    obtain ⟨t, rfl⟩ := hswap.exists_signature
    rw [h t (hswap.isBasic hs) (Option.some.inj hswap.signature_eq)]
  · intro h t ht heq
    exact eq_of_toDescriptor (((display_eq_iff hs ht).1 heq).eq_of_isUniform h)

/-- Signatures without composites are shown alike if and only if exchanges of conventions, between
a signature and the callback it returns, lead from one to the other, and so are callbacks. Those
that are told by how they are shown are the ones in which nothing returns a callback of another
convention. -/
theorem shown_alike_iff :
    (∀ s : Signature, s.toDescriptor.IsBasic →
      (∀ t : Signature, t.toDescriptor.IsBasic →
        (s.display = t.display ↔ s.toDescriptor.Rearranges t.toDescriptor)) ∧
      ((∀ t : Signature, t.toDescriptor.IsBasic → s.display = t.display → s = t) ↔
        s.toDescriptor.IsUniform)) ∧
    ∀ d : Descriptor, d.IsBasic →
      (∀ e : Descriptor, e.IsBasic → (d.display = e.display ↔ d.Rearranges e)) ∧
      ((∀ e : Descriptor, e.IsBasic → d.display = e.display → d = e) ↔ d.IsUniform) :=
  ⟨fun _ hs => ⟨fun _ ht => display_eq_iff hs ht, told_iff hs⟩,
    fun _ hd => ⟨fun _ he => hd.display_eq_iff he, hd.told_iff⟩⟩

end Signature

-- A function that takes a handler and gives one back, with the convention of either.
namespace Sample

def handler (c : Convention) : Descriptor := .callback [.prim .int32] (.prim .void) c

def replace (own given : Convention) : Signature := ⟨[handler .stdcall], handler given, own⟩

private theorem handler_isBasic (c : Convention) : (handler c).IsBasic :=
  .callback c (List.forall_mem_singleton.2 (.prim .int32)) (.prim .void)

private theorem replace_isBasic (own given : Convention) :
    (replace own given).toDescriptor.IsBasic :=
  .callback own (List.forall_mem_singleton.2 (handler_isBasic .stdcall)) (handler_isBasic given)

private theorem handler_isUniform (c : Convention) : (handler c).IsUniform :=
  .callback c (List.forall_mem_singleton.2 (.prim .int32)) (.prim .void) (by rintro _ _ _ ⟨⟩)

private theorem replace_isUniform (c : Convention) : (replace c c).toDescriptor.IsUniform :=
  .callback c (List.forall_mem_singleton.2 (handler_isUniform .stdcall)) (handler_isUniform c)
    (by rintro _ _ _ ⟨⟩; rfl)

private theorem display_replace :
    (replace .stdcall .standard).display = (replace .standard .stdcall).display := by
  decide

end Sample

/-- A single mark may be the function's or its result's, two marks are those of both. -/
theorem Signature.shown_alike_iff_replace :
    (Sample.replace .stdcall .standard).toDescriptor.IsBasic ∧
    (Sample.replace .standard .stdcall).toDescriptor.IsBasic ∧
    (Sample.replace .stdcall .standard).display = (Sample.replace .standard .stdcall).display ∧
    (Sample.replace .stdcall .standard).toDescriptor.Rearranges
      (Sample.replace .standard .stdcall).toDescriptor ∧
    (Sample.replace .stdcall .standard).toDescriptor.display =
      (Sample.replace .standard .stdcall).toDescriptor.display ∧
    (Sample.replace .stdcall .stdcall).toDescriptor.IsBasic ∧
    (Sample.replace .stdcall .stdcall).toDescriptor.IsUniform ∧
    ∀ t : Signature, t.toDescriptor.IsBasic →
      (Sample.replace .stdcall .stdcall).display = t.display →
        Sample.replace .stdcall .stdcall = t := by
  obtain ⟨hsignatures, hdescriptors⟩ := shown_alike_iff
  have houter := Sample.replace_isBasic .stdcall .standard
  have hinner := Sample.replace_isBasic .standard .stdcall
  have hboth := Sample.replace_isBasic .stdcall .stdcall
  have hswapped := ((hsignatures _ houter).1 _ hinner).1 Sample.display_replace
  refine ⟨houter, hinner, Sample.display_replace, hswapped, ?_, hboth,
    Sample.replace_isUniform .stdcall, ?_⟩
  · exact ((hdescriptors _ houter).1 _ hinner).2 hswapped
  · exact (hsignatures _ hboth).2.2 (Sample.replace_isUniform .stdcall)

/-- Functions of different signatures may be shown alike, and so may callbacks. -/
theorem Signature.not_display_injective :
    (¬ ∀ s t : Signature, s.toDescriptor.IsBasic → t.toDescriptor.IsBasic →
      s.display = t.display → s = t) ∧
    ¬ ∀ s t : Signature, s.toDescriptor.IsBasic → t.toDescriptor.IsBasic →
      s.toDescriptor.display = t.toDescriptor.display → s.toDescriptor = t.toDescriptor := by
  have hne : Sample.replace .stdcall .standard ≠ Sample.replace .standard .stdcall := by
    rintro ⟨⟩
  refine ⟨fun h => ?_, fun h => ?_⟩
  · exact hne (h _ _ (Sample.replace_isBasic _ _) (Sample.replace_isBasic _ _)
      Sample.display_replace)
  · have hdisplay : (Sample.replace .stdcall .standard).toDescriptor.display =
        (Sample.replace .standard .stdcall).toDescriptor.display := by decide
    exact hne (Signature.eq_of_toDescriptor
      (h _ _ (Sample.replace_isBasic _ _) (Sample.replace_isBasic _ _) hdisplay))

end ForeignBinding
