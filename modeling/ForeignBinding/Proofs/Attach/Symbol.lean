import ForeignBinding.Library.Table
import ForeignBinding.Proofs.Attach.Function
import ForeignBinding.Proofs.Attach.Variable
import ForeignBinding.Proofs.Layout.Alignment

/-!
# Functions and variables find the same symbols

A variable's symbol is looked up in the libraries, a function's by the builder that is asked about
one library after the other. Where the builder does no more than look the symbol up, both searches
end in the first library that has the symbol at an address that is not null.
-/

namespace ForeignBinding

open Attempt

/-- The library has the symbol at an address that is not null. -/
def Library.Exports (l : Library) (symbol : String) (a : Address) : Prop :=
  l.symbol? symbol = some a ∧ a ≠ .null

private theorem Address.isNull_iff {a : Address} : a.isNull ↔ a = .null := by
  obtain ⟨val⟩ := a
  simp [isNull, null]

namespace Library

variable {l : Library} {symbol : String} {a : Address}

private theorem find?_eq_some_iff : l.find? symbol = some a ↔ l.Exports symbol a := by
  have hnull : (!a.isNull) = true ↔ a ≠ .null := by simp [← Address.isNull_iff]
  rw [find?, Option.filter_eq_some_iff, hnull]
  rfl

private theorem find?_eq_none_iff : l.find? symbol = none ↔ ∀ a, ¬ l.Exports symbol a := by
  simp only [Option.eq_none_iff_forall_ne_some, ne_eq, find?_eq_some_iff]

end Library

namespace LibrarySet

variable {set : LibrarySet} {symbol : String} {l : Library} {a : Address}

/-- The library is the first in declaration order that has the symbol, at this address. -/
def Locates (set : LibrarySet) (symbol : String) (l : Library) (a : Address) : Prop :=
  ∃ skipped rest, set.libraries = skipped ++ l :: rest ∧
    (∀ k ∈ skipped, ∀ b, ¬ k.Exports symbol b) ∧ l.Exports symbol a

/-- No library has the symbol. -/
def Lacks (set : LibrarySet) (symbol : String) : Prop :=
  ∀ l ∈ set.libraries, ∀ a, ¬ l.Exports symbol a

private theorem find?_eq_some_iff : set.find? symbol = some (l, a) ↔ set.Locates symbol l a := by
  have hpair : ∀ k, (k.find? symbol).map (k, ·) = some (l, a) ↔ k = l ∧ k.Exports symbol a := by
    intro k
    simp only [Option.map_eq_some_iff, Prod.mk.injEq, Library.find?_eq_some_iff]
    exact ⟨fun ⟨_, hb, hk, hab⟩ => ⟨hk, hab ▸ hb⟩, fun ⟨hk, ha⟩ => ⟨a, ha, hk, rfl⟩⟩
  rw [find?, List.findSome?_eq_some_iff]
  constructor
  · rintro ⟨skipped, k, rest, heq, hk, hskipped⟩
    obtain ⟨rfl, ha⟩ := (hpair k).1 hk
    refine ⟨skipped, rest, heq, ?_, ha⟩
    intro j hj
    exact Library.find?_eq_none_iff.1 (Option.map_eq_none_iff.1 (hskipped j hj))
  · rintro ⟨skipped, rest, heq, hskipped, ha⟩
    refine ⟨skipped, l, rest, heq, (hpair l).2 ⟨rfl, ha⟩, ?_⟩
    intro j hj
    exact Option.map_eq_none_iff.2 (Library.find?_eq_none_iff.2 (hskipped j hj))

private theorem find?_eq_none_iff : set.find? symbol = none ↔ set.Lacks symbol := by
  simp only [find?, List.findSome?_eq_none_iff, Option.map_eq_none_iff,
    Library.find?_eq_none_iff, Lacks]

private theorem lacks_iff_not_locates : set.Lacks symbol ↔ ¬ ∃ l a, set.Locates symbol l a := by
  simp only [← find?_eq_none_iff, Option.eq_none_iff_forall_ne_some, ← find?_eq_some_iff,
    Prod.forall, not_exists, ne_eq]

end LibrarySet

namespace InvokerBuilder

variable {build : InvokerBuilder} {q : InvokerRequest}

/-- The builder looks up the symbol it is asked for, and makes an invoker for the address. -/
def LooksUp (build : InvokerBuilder) : Prop :=
  ∃ make : InvokerRequest → Address → Invoker, (∀ q a, (make q a).address = a) ∧
    ∀ q, build q = q.locate.map (make q)

private theorem probe_looksUp : probe.LooksUp := by
  refine ⟨fun q address => ⟨address, fun _ => .fail
    (.native s!"`{q.symbol}` {q.signature.display} was only probed and cannot be called")⟩,
    fun _ _ => rfl, ?_⟩
  intro q
  unfold probe
  cases q.locate <;> rfl

private theorem LooksUp.eq_ok (h : build.LooksUp) {a : Address}
    (ha : q.library.Exports q.symbol a) : ∃ i, build q = .ok i ∧ i.address = a := by
  obtain ⟨make, haddress, hbuild⟩ := h
  have hlocate : q.locate = .ok a := by rw [InvokerRequest.locate, Library.find?_eq_some_iff.2 ha]
  exact ⟨make q a, by rw [hbuild, hlocate]; rfl, haddress q a⟩

private theorem LooksUp.eq_fail (h : build.LooksUp) (hq : ∀ a, ¬ q.library.Exports q.symbol a) :
    build q = .fail (.notFound q.symbol q.library.display) := by
  obtain ⟨make, -, hbuild⟩ := h
  rw [hbuild, InvokerRequest.locate, Library.find?_eq_none_iff.2 hq]
  rfl

/-- Such a builder says that a library lacks the function exactly if it does. -/
theorem LooksUp.lacks_iff (h : build.LooksUp) :
    build.Lacks q ↔ ∀ a, ¬ q.library.Exports q.symbol a := by
  constructor
  · rintro ⟨f, -, -, hf, -⟩ a ha
    obtain ⟨i, hi, -⟩ := h.eq_ok ha
    cases hi.symm.trans hf
  · intro hq
    exact ⟨_, _, _, h.eq_fail hq, rfl⟩

end InvokerBuilder

namespace Scope

variable {s : Scope} {set : LibrarySet} {build : InvokerBuilder}

section

variable {f : FunctionDecl} {sig : Signature}

private theorem attachFunction_of_locates (hlibraries : s.frame.libraries = some set)
    (hinvokers : s.host.invokers = some build) (hbuild : build.LooksUp)
    (hsig : s.Signs f.params f.ret sig) {l : Library} {a : Address} (h : set.Locates f.symbol l a) :
    ∃ b s', (s.attachFunction f).1 = .ok (b, s') ∧ b.library = l ∧ b.invoker.address = a := by
  obtain ⟨skipped, rest, heq, hskipped, ha⟩ := h
  have hlacks : ∀ k ∈ skipped, build.Lacks (s.request f sig k) :=
    fun k hk => hbuild.lacks_iff.2 (hskipped k hk)
  have hfound : ¬ build.Lacks (s.request f sig l) := fun hl => hbuild.lacks_iff.1 hl a ha
  obtain ⟨i, hi, haddress⟩ := hbuild.eq_ok (q := s.request f sig l) ha
  obtain ⟨-, hok, -⟩ := attachFunction_of_answer hlibraries hinvokers hsig heq hlacks hfound
  exact ⟨_, _, hok i hi, rfl, haddress⟩

private theorem attachFunction_of_lacks_symbol (hlibraries : s.frame.libraries = some set)
    (hinvokers : s.host.invokers = some build) (hbuild : build.LooksUp)
    (hsig : s.Signs f.params f.ret sig) (hne : set.libraries ≠ []) (h : set.Lacks f.symbol) :
    ∃ first rest, set.libraries = first :: rest ∧ (s.attachFunction f).1 =
      .error (s.refusal f { cause := .notFound f.symbol first.display }) := by
  have hlacks : ∀ l ∈ set.libraries, build.Lacks (s.request f sig l) :=
    fun l hl => hbuild.lacks_iff.2 (h l hl)
  obtain ⟨-, first, rest, g, heq, hg, hresult⟩ :=
    attachFunction_of_lacks hlibraries hinvokers hsig hne hlacks
  have hfirst : first ∈ set.libraries := heq ▸ List.mem_cons_self
  have hfail := hbuild.eq_fail (q := s.request f sig first) (h first hfirst)
  cases hg.symm.trans hfail
  exact ⟨first, rest, heq, hresult⟩

end

/-- A value of the type has a place in memory: the type means something, and nothing in it is
without a layout. -/
def Completes (s : Scope) (defs : Definitions) (t : TypeRef) : Prop :=
  ∃ d, s.resolver.resolveInline t = .ok d ∧ d.IsComplete defs

end Scope

private theorem Definitions.Reachable.sizeOf_lt {defs : Definitions} (h : defs.Reachable)
    {d : Descriptor} (hd : d.IsComplete defs) : defs.sizeOf d < addressCount := by
  have hcomposite : ∀ c, d.composite? = some c → (defs.progress c).size < addressCount := by
    intro c hc
    obtain ⟨l, hl⟩ := hd c hc
    rw [layout?_eq_some.1 hl]
    exact (h.sound.placed c l hl).size_lt
  have hprim : ∀ p : Prim, p.size < addressCount := by
    intro p
    cases p <;> decide
  cases d with
  | prim p => exact hprim p
  | composite c => exact hcomposite c rfl
  | byValue c => exact hcomposite c rfl
  | callback ps r k => exact hprim .pointer

private theorem leastMultiple_of_dvd {alignment n : Nat} (hpos : 0 < alignment)
    (h : alignment ∣ n) : leastMultiple alignment n = n :=
  Nat.le_antisymm ((isLeast_leastMultiple hpos n).2 ⟨h, Nat.le_refl n⟩) (le_leastMultiple hpos n)

namespace VariableDecl

variable {v : VariableDecl} {defs : Definitions} {r : Resolver} {d : Descriptor}

private theorem exists_wrap (hdefs : defs.Reachable) (hd : d.IsComplete defs) :
    ∃ l, v.wrap defs r d = .ok l := by
  have hpos := hdefs.sound.alignmentOf_pos
  have hsize : defs.sizeOf d < addressCount := hdefs.sizeOf_lt hd
  have hwhole : leastMultiple (defs.alignmentOf d) (defs.sizeOf d) = defs.sizeOf d :=
    leastMultiple_of_dvd (hpos d) (hdefs.alignmentOf d).2
  let f : FieldSpec := ⟨VariableBinding.fieldName, .single (.resolved d), none⟩
  have hdenotes : List.Forall₂ (·.Denotes defs r ·) [f] [f.request defs d] :=
    .cons ⟨d, rfl, hd, rfl⟩ .nil
  have hfits : (Unbounded.layout .struct 0 [f.request defs d]).Fits := by
    have hfield : ((f.request defs d).field .struct 0).stop = defs.sizeOf d := by
      simp [f, FieldSpec.request, Request.field, Request.offset, Field.stop, leastMultiple]
    have halignment : Unbounded.alignment [(f.request defs d).field .struct 0] =
        defs.alignmentOf d := Nat.max_eq_right (hpos d)
    have hextent : Unbounded.extent [(f.request defs d).field .struct 0] = defs.sizeOf d := by
      simp [Unbounded.extent, hfield]
    refine ⟨?_, ?_⟩
    · intro g hg
      obtain rfl := List.mem_singleton.1 hg
      exact Field.fits_iff.2 (hfield ▸ hsize)
    · simp only [Unbounded.layout, Unbounded.fields, halignment, hextent, Nat.zero_max, hwhole]
      exact hsize
  have hcompute : Layout.compute defs r .struct 0 (.ordered [f]) =
      .ok (Unbounded.layout .struct 0 [f.request defs d]) :=
    Layout.compute_of_fits hpos (List.nodup_singleton _) hdenotes hfits
  exact ⟨_, under_eq_ok.2 (noting_eq_ok.2 hcompute)⟩

private theorem resolveInline_of_composite? {c : Composite} (h : v.composite? r = some c) :
    r.resolveInline v.type = .ok (.composite c) := by
  unfold composite? at h
  unfold Resolver.resolveInline
  split at h <;> simp_all

theorem resolveInline_of_composite?_eq_none (h : v.composite? r = none) :
    r.resolveInline v.type = r.resolve v.type := by
  unfold composite? at h
  unfold Resolver.resolveInline
  split at h <;> simp_all [Resolver.resolve]

/-- A variable has the type that its declaration means as a field. -/
theorem resolveInline_of_access {a : Address} {access : VariableAccess}
    (h : v.access defs r a = .ok (d, access)) : r.resolveInline v.type = .ok d := by
  cases hc : v.composite? r with
  | some c =>
      simp only [VariableDecl.access, hc] at h
      obtain ⟨w, -, h⟩ := bind_eq_ok.1 h
      cases h
      exact resolveInline_of_composite? hc
  | none =>
      simp only [VariableDecl.access, hc] at h
      obtain ⟨t, ht, h⟩ := bind_eq_ok.1 h
      obtain ⟨l, -, h⟩ := bind_eq_ok.1 h
      cases h
      rw [resolveInline_of_composite?_eq_none hc]
      exact under_eq_ok.1 ht

private theorem exists_access (hdefs : defs.Reachable) (hresolve : r.resolveInline v.type = .ok d)
    (hd : d.IsComplete defs) (a : Address) : ∃ x, v.access defs r a = .ok x := by
  unfold access
  cases hc : v.composite? r with
  | some c =>
      have heq := hresolve.symm.trans (resolveInline_of_composite? hc)
      cases heq
      obtain ⟨l, hl⟩ := hd c rfl
      have hview : View.at? defs c a = .ok ⟨c, l, a⟩ := at?_eq_ok.2 ⟨l, hl, rfl⟩
      simp only [hview, under_ok]
      exact ⟨_, rfl⟩
  | none =>
      rw [resolveInline_of_composite?_eq_none hc] at hresolve
      obtain ⟨l, hl⟩ := exists_wrap (v := v) (r := r) hdefs hd
      simp only [hresolve, under_ok, ok_bind, hl]
      exact ⟨_, rfl⟩

end VariableDecl

namespace Scope

variable {s : Scope} {set : LibrarySet} {defs : Definitions} {v : VariableDecl}

private theorem attachVariable_of_locates (hlibraries : s.frame.libraries = some set)
    (hdefs : defs.Reachable) (hv : s.Completes defs v.type) {l : Library} {a : Address}
    (h : set.Locates v.symbol l a) :
    ∃ b s', s.attachVariable defs v = .ok (b, s') ∧ b.library = l ∧ b.address = a := by
  obtain ⟨d, hresolve, hd⟩ := hv
  obtain ⟨⟨type, access⟩, haccess⟩ := VariableDecl.exists_access hdefs hresolve hd a
  have hopened : s.libraries = .ok set := by rw [Scope.libraries, hlibraries]
  have hfind := LibrarySet.find?_eq_some_iff.2 h
  simp only [attachVariable, hopened, under_ok, ok_bind, ForeignBinding.attachVariable, hfind,
    haccess]
  exact ⟨_, _, rfl, rfl, rfl⟩

private theorem attachVariable_of_lacks_symbol (hlibraries : s.frame.libraries = some set)
    (h : set.Lacks v.symbol) :
    s.attachVariable defs v =
      (Attempt.fail (.notFound v.symbol set.names)).noting s!"In scope `{s.name}`" := by
  have hopened : s.libraries = .ok set := by rw [Scope.libraries, hlibraries]
  have hfind := LibrarySet.find?_eq_none_iff.2 h
  simp only [attachVariable, hopened, under_ok, ok_bind, ForeignBinding.attachVariable, hfind]
  rfl

end Scope

/-- Attached for the same symbol in a scope whose builder only looks symbols up, a function whose
types mean something and a variable whose type has a layout are both bound to the first library
that has the symbol at an address that is not null, and to this address. Where no library has it
both fail, the function telling of the first library, the variable of all. -/
theorem Workspace.attach_alike {w : Workspace} (hw : w.Reachable) {set : LibrarySet}
    (hlibraries : w.scope.frame.libraries = some set) {build : InvokerBuilder}
    (hbuild : build.LooksUp) {f : FunctionDecl} {v : VariableDecl}
    (hsymbol : f.symbol = v.symbol)
    (hf : ∀ t ∈ f.ret :: f.params, ∃ d, w.scope.findType t = .ok d)
    (hv : w.scope.Completes w.definitions v.type) :
    let s := { w.scope with host.invokers := some build }
    (∀ l a, set.Locates f.symbol l a → ∃ b b' s₁ s₂,
        (s.attachFunction f).1 = .ok (b, s₁) ∧
        s.attachVariable w.definitions v = .ok (b', s₂) ∧
        b.library = l ∧ b.invoker.address = a ∧ b'.library = l ∧ b'.address = a) ∧
      (set.Lacks f.symbol → ∃ first rest g g', set.libraries = first :: rest ∧
        (s.attachFunction f).1 = .error g ∧ s.attachVariable w.definitions v = .error g' ∧
        g.chain = [.note s!"In scope `{s.name}`", .cause (.ofAttach (.ofFunction f.name)),
          .cause (.ofInvoker (.notFound f.symbol first.display))] ∧
        g'.chain = [.note s!"In scope `{s.name}`",
          .cause (.ofAttach (.notFound f.symbol set.names))]) ∧
      (set.Lacks f.symbol ↔ ¬ ∃ l a, set.Locates f.symbol l a) := by
  intro s
  obtain ⟨sig, hsig⟩ : ∃ sig, s.Signs f.params f.ret sig := Scope.exists_signs_iff.2 hf
  have hstocked : s.Stocked := hw.holds (P := fun s _ => s.Stocked) fun _ ht => ht.stocked
  refine ⟨?_, ?_, LibrarySet.lacks_iff_not_locates⟩
  · intro l a h
    obtain ⟨b, s₁, hb, hlibrary, haddress⟩ :=
      Scope.attachFunction_of_locates (s := s) hlibraries rfl hbuild hsig h
    obtain ⟨b', s₂, hb', hlibrary', haddress'⟩ :=
      Scope.attachVariable_of_locates (s := s) hlibraries hw.definitions hv (hsymbol ▸ h)
    exact ⟨b, b', s₁, s₂, hb, hb', hlibrary, haddress, hlibrary', haddress'⟩
  · intro h
    obtain ⟨first, rest, heq, hfunction⟩ := Scope.attachFunction_of_lacks_symbol (s := s)
      hlibraries rfl hbuild hsig (hstocked set hlibraries) h
    have hvariable : s.attachVariable w.definitions v = .error
        ({ cause := .notFound v.symbol set.names : Failure AttachError }.note
          s!"In scope `{s.name}`") :=
      Scope.attachVariable_of_lacks_symbol hlibraries (hsymbol ▸ h)
    rw [← hsymbol] at hvariable
    exact ⟨first, rest, _, _, heq, hfunction, hvariable, rfl, rfl⟩

-- The first library has the symbol at the null address, the second and the third at others.
namespace Sample

def tableOf (a : Address) : String → Option Address := fun s => [("deflate", a)].lookup s

def tabled : Workspace :=
  ((Workspace.new (.new "main" { host with
    load := .ofTable [(some "m", [("deflate", .null)]), (some "z", [("deflate", ⟨4096⟩)]),
      (some "rt", [("deflate", ⟨8192⟩)])] })).declare
    (.libraries [.named "m", .named "z", .named "rt"])).2

private theorem tabled_reachable : tabled.Reachable :=
  .declare ⟨_, .single (.new "main" _), List.mem_cons_self, rfl⟩ _

private def tables : LibrarySet :=
  ⟨[⟨some "m", tableOf .null⟩, ⟨some "z", tableOf ⟨4096⟩⟩, ⟨some "rt", tableOf ⟨8192⟩⟩], []⟩

private theorem libraries_tabled : tabled.scope.frame.libraries = some tables := rfl

def deflateTable : VariableDecl := ⟨"table", some "deflate", .resolved (.prim .int16)⟩

private theorem tables_locates : tables.Locates "deflate" ⟨some "z", tableOf ⟨4096⟩⟩ ⟨4096⟩ := by
  refine ⟨[⟨some "m", tableOf .null⟩], [⟨some "rt", tableOf ⟨8192⟩⟩], rfl, ?_, rfl, by decide⟩
  rintro k hk a ⟨ha, hnull⟩
  obtain rfl := List.mem_singleton.1 hk
  cases ha
  exact hnull rfl

def inflate : FunctionDecl := ⟨"inflate", none, [], .resolved (.prim .int32)⟩

def inflateTable : VariableDecl := ⟨"table", some "inflate", .resolved (.prim .int16)⟩

private theorem tables_lacks : tables.Lacks "inflate" := by
  rintro l hl a ⟨ha, -⟩
  simp only [tables, List.mem_cons, List.not_mem_nil, or_false] at hl
  rcases hl with rfl | rfl | rfl <;> cases ha

end Sample

theorem Workspace.attach_alike_deflate :
    let s := { Sample.tabled.scope with host.invokers := some .probe }
    let defs := Sample.tabled.definitions
    Sample.tabled.Reachable ∧
      (∃ b b' s₁ s₂, (s.attachFunction Sample.deflate).1 = .ok (b, s₁) ∧
        s.attachVariable defs Sample.deflateTable = .ok (b', s₂) ∧
        b.library = ⟨some "z", Sample.tableOf ⟨4096⟩⟩ ∧ b.invoker.address = ⟨4096⟩ ∧
        b'.library = ⟨some "z", Sample.tableOf ⟨4096⟩⟩ ∧ b'.address = ⟨4096⟩) ∧
      ∃ g g', (s.attachFunction Sample.inflate).1 = .error g ∧
        s.attachVariable defs Sample.inflateTable = .error g' ∧
        g.account = ["In scope `main`", "Cannot attach function `inflate`",
          "Function 'inflate' not found in [m]"] ∧
        g'.account = ["In scope `main`", "Symbol `inflate` not found in [m, z, rt]"] := by
  intro s defs
  have hnumber : ∀ t ∈ [TypeRef.resolved (.prim .int32), .resolved (.prim .int32)],
      ∃ d, Sample.tabled.scope.findType t = .ok d := by
    simp [Scope.findType, Resolver.resolve]
  have hshort : Sample.tabled.scope.Completes defs (.resolved (.prim .int16)) :=
    ⟨.prim .int16, rfl, nofun⟩
  obtain ⟨hfound, -⟩ := attach_alike (f := Sample.deflate) (v := Sample.deflateTable)
    Sample.tabled_reachable Sample.libraries_tabled InvokerBuilder.probe_looksUp rfl hnumber hshort
  obtain ⟨-, hmissing, -⟩ := attach_alike (f := Sample.inflate) (v := Sample.inflateTable)
    Sample.tabled_reachable Sample.libraries_tabled InvokerBuilder.probe_looksUp rfl
    (fun t ht => hnumber t (List.mem_cons_of_mem _ ht)) hshort
  obtain ⟨first, rest, g, g', heq, hg, hg', hchain, hchain'⟩ := hmissing Sample.tables_lacks
  cases heq
  refine ⟨Sample.tabled_reachable, hfound _ _ Sample.tables_locates, g, g', hg, hg', ?_, ?_⟩
  · rw [Failure.account, hchain]
    rfl
  · rw [Failure.account, hchain']
    rfl

end ForeignBinding
