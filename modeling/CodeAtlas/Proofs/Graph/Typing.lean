import CodeAtlas.Proofs.Graph.Enclosing
import CodeAtlas.Proofs.Graph.Passes
import CodeAtlas.Proofs.Graph.Recording

/-!
# Types of edges

What a pass tells fits the kinds of the symbols that it relates: only callable symbols call, only types are
bases, only data is modified. How strong an edge is and how it accesses its target depend on its kind alone,
and merging two observations of one kind changes neither. So the edges of a built graph are well typed.
-/

namespace CodeAtlas

namespace EdgeKind

/-- The kinds of symbols that edges of a kind go from and to. Other kinds of edges are not built. -/
def relates (kind : EdgeKind) (source target : SymbolKind) : Bool :=
  match kind with
  | .calls => source.isCallable && target.isCallable
  | .instantiates => source.isCallable && target.isTypeLike
  | .references => target.isCallable
  | .uses => !target.isCallable
  | .modifies => target == .var || target == .field || target == .const
  | .inherits | .implements => source.isTypeLike && target.isTypeLike
  | .contains => source.isTypeLike
  | _ => false

def isLocal : EdgeKind → Bool
  | .inherits | .implements | .contains => true
  | _ => false

/-- How strong the edges of a kind are, and how they access their targets. -/
def profile? : EdgeKind → Option (Rat × Access)
  | .calls => some (1, .execute)
  | .instantiates => some (mkRat 8 10, .execute)
  | .references => some (mkRat 3 10, .read)
  | .uses => some (mkRat 5 10, .read)
  | .modifies => some (mkRat 7 10, .write)
  | .inherits | .implements => some (1, .read)
  | .contains => some (1, .unknown)
  | _ => none

end EdgeKind

theorem SymbolKind.not_isCallable_of_isTypeLike {kind : SymbolKind} (h : kind.isTypeLike = true) :
    kind.isCallable = false := by
  by_contra hcallable
  cases kind <;> simp_all [isTypeLike, isCallable]

namespace Build

open SymbolGraph

variable {files : List FileRecord} {f : FileRecord} {s t : Symbol} {l : Link} {name : String}
  {rank : SymbolKind → Nat} {candidates : List Symbol}

/-! ## What names mean has the wanted kind -/

theorem rank_pos_of_best? (h : best? rank candidates = some s) : 0 < rank s.kind := by
  have hall : ∀ s, best? rank candidates = some s → 0 < rank s.kind := by
    refine List.foldlRecOn candidates _ (motive := fun state : Option Symbol × Nat =>
      ∀ s, state.1 = some s → 0 < rank s.kind) (by simp) fun ⟨found, top⟩ ih c _ s hs => ?_
    dsimp only at hs
    split at hs
    · rename_i hbetter
      obtain rfl := Option.some.inj hs
      omega
    · exact ih s hs
  exact hall s h

theorem exists_declaration_of_resolve? (h : resolve? files f name rank = some s) :
    0 < rank s.kind ∧ ∃ owner, (owner, s) ∈ declarations files := by
  rw [resolve?, Option.orElse_eq_orElse, Option.orElse_eq_or, Option.or_eq_some_iff] at h
  rcases h with h | ⟨-, h⟩
  all_goals
    obtain ⟨owner, howner, hs⟩ := List.mem_flatMap.mp (List.mem_of_mem_filter (mem_of_best? h))
    exact ⟨rank_pos_of_best? h, owner, mem_declarations.mpr ⟨List.mem_of_mem_filter howner, hs⟩⟩

/-! ## What the passes tell is well typed -/

/-- Two identifiers are those of symbols that an edge of a kind may relate. -/
def WellTyped (files : List FileRecord) (kind : EdgeKind) (source target : String) : Prop :=
  ∃ a ∈ declarations files, ∃ b ∈ declarations files, a.2.id = source ∧ b.2.id = target ∧
    kind.relates a.2.kind b.2.kind = true ∧ (kind.isLocal = true → a.1.fileId = b.1.fileId)

theorem declaration_of_sourceOf? {u : Usage} (hf : f ∈ files) (h : sourceOf? f u = some s) :
    (f, s) ∈ declarations files ∧ (u.kind = .call → s.kind.isCallable = true) := by
  unfold sourceOf? at h
  split at h
  · cases h
  · refine ⟨mem_declarations.mpr ⟨hf, mem_of_enclosing? h⟩, fun hcall => ?_⟩
    exact (exists_split_of_enclosing? h).1.1 (by simp [hcall])

theorem typed_of_usageLink? {u : Usage} {kind : EdgeKind} {access : Access}
    (h : usageLink? files f u = some (kind, access, t)) (hsource : u.kind = .call → s.kind.isCallable = true) :
    kind.relates s.kind t.kind = true ∧ kind.isLocal = false ∧
      kind.profile? = some (strengthOf kind, access) ∧ ∃ owner, (owner, t) ∈ declarations files := by
  unfold usageLink? at h
  split at h
  case h_1 hcall =>
    obtain ⟨target, hresolved, heq⟩ := Option.bind_eq_some_iff.mp h
    obtain ⟨rfl, rfl, rfl⟩ := by simpa using heq
    obtain ⟨hrank, howner⟩ := exists_declaration_of_resolve? hresolved
    by_cases htype : target.kind.isTypeLike = true
    · simp [htype, EdgeKind.relates, EdgeKind.isLocal, EdgeKind.profile?, strengthOf, hsource hcall, howner]
    · have hcallable : target.kind.isCallable = true := by
        by_contra hnot
        simp [callRank, htype, hnot] at hrank
      simp [htype, EdgeKind.relates, EdgeKind.isLocal, EdgeKind.profile?, strengthOf, hsource hcall, hcallable,
        howner]
  case h_2 =>
    obtain ⟨target, hresolved, heq⟩ := Option.bind_eq_some_iff.mp h
    obtain ⟨rfl, rfl, rfl⟩ := by simpa using heq
    obtain ⟨-, howner⟩ := exists_declaration_of_resolve? hresolved
    by_cases hcallable : target.kind.isCallable = true <;>
      simp [hcallable, EdgeKind.relates, EdgeKind.isLocal, EdgeKind.profile?, strengthOf, howner]
  case h_3 =>
    obtain ⟨target, hresolved, heq⟩ := Option.bind_eq_some_iff.mp h
    obtain ⟨rfl, rfl, rfl⟩ := by simpa using heq
    obtain ⟨hrank, howner⟩ := exists_declaration_of_resolve? hresolved
    refine ⟨?_, rfl, rfl, howner⟩
    cases hkind : target.kind <;> simp [hkind, dataRank, isData] at hrank <;> rfl
  case h_4 => cases h

theorem Told.wellTyped (h : Told files l) :
    WellTyped files l.kind l.source l.target ∧ l.kind.profile? = some (l.strength, l.context.access) := by
  cases h with
  | usage hf hu hl =>
      unfold ofUsage? at hl
      obtain ⟨source, hsource, hl⟩ := Option.bind_eq_some_iff.mp hl
      obtain ⟨⟨kind, access, target⟩, htarget, hl⟩ := Option.bind_eq_some_iff.mp hl
      obtain rfl := Option.some.inj hl
      obtain ⟨hdeclared, hcallable⟩ := declaration_of_sourceOf? hf hsource
      obtain ⟨hrelates, hlocal, hprofile, owner, howner⟩ := typed_of_usageLink? htarget hcallable
      exact ⟨⟨_, hdeclared, _, howner, rfl, rfl, hrelates, by simp [hlocal]⟩, hprofile⟩
  | @base f s t hf hs ht h =>
      obtain ⟨owner, howner, hfile, ht⟩ := mem_symbolsOfFile.mp ht
      have htype : s.kind.isTypeLike = true := by
        rcases h.kind with hkind | hkind | hkind <;> rw [hkind] <;> rfl
      refine ⟨⟨_, mem_declarations.mpr ⟨hf, hs⟩, _, mem_declarations.mpr ⟨howner, ht⟩, rfl, rfl, ?_,
        fun _ => hfile.symm⟩, ?_⟩
      all_goals
        unfold inheritanceLink
        dsimp only
        split
      · simp [EdgeKind.relates, htype, h.isType]
      · simp [EdgeKind.relates, htype, h.isType]
      · rfl
      · rfl
  | @typeUse f s l hf hs hdata hl =>
      obtain ⟨target, htarget, rfl⟩ := List.mem_map.mp hl
      obtain ⟨name, -, hresolved⟩ := List.mem_filterMap.mp htarget
      obtain ⟨hrank, owner, howner⟩ := exists_declaration_of_resolve? hresolved
      have htype : target.kind.isTypeLike = true := by
        by_contra hnot
        simp [typeRank, hnot] at hrank
      refine ⟨⟨_, mem_declarations.mpr ⟨hf, hs⟩, _, howner, rfl, rfl, ?_, by simp [EdgeKind.isLocal]⟩, rfl⟩
      simp [EdgeKind.relates, SymbolKind.not_isCallable_of_isTypeLike htype]
  | @member f s l hf hs hl =>
      unfold containment? at hl
      split at hl
      · cases hl
      · obtain ⟨owner, howner, rfl⟩ := Option.map_eq_some_iff.mp hl
        obtain ⟨file, hfile, hsame, hmem⟩ := mem_symbolsOfFile.mp (List.mem_of_find?_eq_some howner)
        obtain ⟨-, htype⟩ := by simpa using List.find?_some howner
        exact ⟨⟨_, mem_declarations.mpr ⟨hfile, hmem⟩, _, mem_declarations.mpr ⟨hf, hs⟩, rfl, rfl, htype,
          fun _ => hsame⟩, rfl⟩

end Build

/-! ## Merging does not change the profile -/

namespace Edge

/-- If all observations have one strength and one access, then so has the edge. -/
def Uniform (e : Edge) (links : List Link) : Prop :=
  ∀ q access, (∀ l ∈ links, l.strength = q ∧ l.context.access = access) →
    e.strength = clampUnit q ∧ e.context.access = access

theorem uniform_ofLink (l : Link) : (ofLink l).Uniform [l] := by
  intro q access hall
  obtain ⟨rfl, rfl⟩ := hall l (by simp)
  exact ⟨rfl, rfl⟩

theorem Uniform.absorb {e : Edge} {links : List Link} (h : e.Uniform links) (l : Link) :
    (e.absorb l).Uniform (links ++ [l]) := by
  intro q access hall
  obtain ⟨hstrength, haccess⟩ := h q access fun k hk => hall k (List.mem_append_left _ hk)
  obtain ⟨rfl, rfl⟩ := hall l (by simp)
  refine ⟨?_, ?_⟩
  · calc
      (e.absorb l).strength = atMostOne (if clampUnit l.strength < l.strength then l.strength
          else clampUnit l.strength) := by
        rw [← hstrength]
        rfl
      _ = clampUnit (if l.strength < l.strength then l.strength else l.strength) :=
        atMostOne_clampUnit _ _
      _ = clampUnit l.strength := by
        rw [ite_self]
  · have hmerge : (e.absorb l).context.access = e.context.access.merge l.context.access := rfl
    rw [hmerge, haccess]
    simp [Access.merge]

end Edge

theorem EdgeKind.clampUnit_of_profile? {kind : EdgeKind} {q : Rat} {access : Access}
    (h : kind.profile? = some (q, access)) : clampUnit q = q := by
  cases kind <;> simp only [profile?, Option.some.injEq, Prod.mk.injEq, reduceCtorEq] at h <;>
    obtain ⟨rfl, -⟩ := h <;> decide

namespace SymbolGraph

open Build

theorem wellTyped_of_mem {files : List FileRecord} {e : Edge} (he : e ∈ (build files).edges) :
    WellTyped files e.kind e.source e.target ∧ e.kind.profile? = some (e.strength, e.context.access) := by
  obtain ⟨links, hrecords, htold⟩ := told_build files
  obtain ⟨l, hl, hrelation⟩ := hrecords.exists_link he
  obtain ⟨hsource, htarget, hkind⟩ : l.source = e.source ∧ l.target = e.target ∧ l.kind = e.kind := by
    simpa [Link.relation, Edge.relation] using hrelation
  obtain ⟨htyped, hprofile⟩ := (htold l hl).wellTyped
  rw [hsource, htarget, hkind] at htyped
  rw [hkind] at hprofile
  refine ⟨htyped, ?_⟩
  -- All observations of the edge have its kind, and with it one profile.
  have huniform : e.Uniform (links.filter (·.fits e)) :=
    of_mem_merged Edge.uniform_ofLink (fun _ _ k h => h.absorb k) (hrecords.edges ▸ he)
  obtain ⟨hstrength, haccess⟩ := huniform l.strength l.context.access fun k hk => by
    obtain ⟨hmem, hfits⟩ := List.mem_filter.mp hk
    have hsame : e.kind = k.kind := congrArg (·.2.2) (Link.fits_iff.mp hfits)
    have heq := (htold k hmem).wellTyped.2
    rw [← hsame, hprofile] at heq
    simpa [eq_comm] using heq
  rw [hstrength, haccess, EdgeKind.clampUnit_of_profile? hprofile, hprofile]

/-- The ends of an edge are two symbols of the files, the only ones with their identifiers, and their kinds
are such as an edge of its kind may relate; for inheritance and containment they are in files with the same
identifier. The strength and the access of an edge follow from its kind. -/
theorem edges_wellTyped (files : List FileRecord)
    (hids : ((files.flatMap (·.symbols)).map (·.id)).Nodup) :
    ∀ e ∈ (build files).edges, e.kind.profile? = some (e.strength, e.context.access) ∧
      ∃ a ∈ declarations files, ∃ b ∈ declarations files, a.2.id = e.source ∧ b.2.id = e.target ∧
        (∀ c ∈ declarations files, (c.2.id = e.source → c = a) ∧ (c.2.id = e.target → c = b)) ∧
        e.kind.relates a.2.kind b.2.kind = true ∧ (e.kind.isLocal = true → a.1.fileId = b.1.fileId) := by
  intro e he
  obtain ⟨⟨a, ha, b, hb, hsource, htarget, hrelates, hlocal⟩, hprofile⟩ := wellTyped_of_mem he
  refine ⟨hprofile, a, ha, b, hb, hsource, htarget, fun c hc => ⟨fun hid => ?_, fun hid => ?_⟩,
    hrelates, hlocal⟩
  · exact declarations_inj hids hc ha (hid.trans hsource.symm)
  · exact declarations_inj hids hc hb (hid.trans htarget.symm)

/-- A file whose graph has edges of all eight kinds, two of them merged from two usages. -/
def circles : List FileRecord :=
  [⟨"circles", "p",
    [⟨"drawable", "", "Drawable", .interface, ⟨1, 10⟩, ⟨1, 18⟩, "interface Drawable", "", "", []⟩,
      ⟨"shape", "", "Shape", .classDecl, ⟨2, 6⟩, ⟨2, 14⟩, "class Shape \x7b", "", "", []⟩,
      ⟨"circle", "", "Circle", .classDecl, ⟨3, 6⟩, ⟨9, 1⟩,
        "class Circle extends Shape implements Drawable \x7b", "", "", []⟩,
      ⟨"radius", "", "radius", .field, ⟨4, 2⟩, ⟨4, 15⟩, "radius: Length", "Circle", "", []⟩,
      ⟨"area", "", "area", .method, ⟨5, 2⟩, ⟨5, 30⟩, "area()", "Circle", "", []⟩,
      ⟨"grow", "", "grow", .method, ⟨6, 2⟩, ⟨8, 3⟩, "grow()", "Circle", "", []⟩], [],
    [⟨"area", ⟨"", ⟨6, 12⟩, ⟨6, 16⟩⟩, .call, "area()"⟩,
      ⟨"Shape", ⟨"", ⟨6, 20⟩, ⟨6, 25⟩⟩, .call, "new Shape()"⟩,
      ⟨"area", ⟨"", ⟨7, 4⟩, ⟨7, 8⟩⟩, .reference, "later(area)"⟩,
      ⟨"radius", ⟨"", ⟨7, 14⟩, ⟨7, 20⟩⟩, .reference, "radius + radius"⟩,
      ⟨"radius", ⟨"", ⟨7, 23⟩, ⟨7, 29⟩⟩, .reference, "radius + radius"⟩,
      ⟨"radius", ⟨"", ⟨7, 30⟩, ⟨7, 36⟩⟩, .assignment, "radius = 1"⟩,
      ⟨"radius", ⟨"", ⟨7, 40⟩, ⟨7, 46⟩⟩, .assignment, "radius = 2"⟩]⟩]

theorem edges_wellTyped_circles :
    ((circles.flatMap (·.symbols)).map (·.id)).Nodup ∧
      (build circles).edges.map (·.kind) = [.calls, .instantiates, .references, .uses, .modifies, .inherits,
        .implements, .contains, .contains, .contains] ∧
      ∀ e ∈ (build circles).edges, e.kind.profile? = some (e.strength, e.context.access) := by
  have hids : ((circles.flatMap (·.symbols)).map (·.id)).Nodup := by decide +kernel
  exact ⟨hids, by decide +kernel, fun e he => (edges_wellTyped circles hids e he).1⟩

end SymbolGraph

end CodeAtlas
