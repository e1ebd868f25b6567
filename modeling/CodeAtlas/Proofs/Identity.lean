import CodeAtlas.Model.Project
import CodeAtlas.Proofs.Extract.Resolving
import CodeAtlas.Proofs.Graph.WellFormed
import CodeAtlas.Proofs.Text.Glyphs
import Std.Data.String.ToInt

/-!
# Identifiers that tell things apart

An identifier is derived from a key, in which the fields of a thing stand one after the other with separators
between them. A separator may stand in a field as well, in the name of a symbol for one. Still the fields can
be read off the key, since it is known from which end to look for a separator: a kind has no colon, so the
first colon behind it ends it, and a number has none, so the last two colons of a key stand before the line and
the column. What is left is the name, whatever it is. So keys are the same only if all fields are, and as far
as different keys are given different identifiers, an identifier stands for one thing.
-/

namespace CodeAtlas

/-! ## The first and the last separator -/

section Separators

variable {α : Type} {c : α} {a b a' b' : List α}

theorem append_cons_inj_of_first (ha : c ∉ a) (ha' : c ∉ a') :
    a ++ c :: b = a' ++ c :: b' ↔ a = a' ∧ b = b' := by
  constructor
  · intro h
    induction a generalizing a' with
    | nil =>
        cases a' with
        | nil => simpa using h
        | cons x a' =>
            obtain ⟨rfl, -⟩ := List.cons.inj h
            exact absurd List.mem_cons_self ha'
    | cons x a ih =>
        cases a' with
        | nil =>
            obtain ⟨rfl, -⟩ := List.cons.inj h
            exact absurd List.mem_cons_self ha
        | cons y a' =>
            obtain ⟨rfl, hrest⟩ := List.cons.inj h
            obtain ⟨rfl, rfl⟩ := ih (mt (List.mem_cons_of_mem x) ha) (mt (List.mem_cons_of_mem x) ha') hrest
            exact ⟨rfl, rfl⟩
  · rintro ⟨rfl, rfl⟩
    rfl

theorem append_cons_inj_of_last (hb : c ∉ b) (hb' : c ∉ b') :
    a ++ c :: b = a' ++ c :: b' ↔ a = a' ∧ b = b' := by
  have hfirst : b.reverse ++ c :: a.reverse = b'.reverse ++ c :: a'.reverse ↔
      b.reverse = b'.reverse ∧ a.reverse = a'.reverse :=
    append_cons_inj_of_first (mt List.mem_reverse.mp hb) (mt List.mem_reverse.mp hb')
  rw [List.reverse_inj, List.reverse_inj] at hfirst
  rw [← List.reverse_inj, List.reverse_append, List.reverse_append, List.reverse_cons, List.reverse_cons,
    List.append_assoc, List.append_assoc, List.singleton_append, List.singleton_append, hfirst, and_comm]

end Separators

theorem colon_not_mem_toString (n : Int) : ':' ∉ (toString n).toList := by
  have hdigits (m : Nat) : ':' ∉ Nat.toDigits 10 m := by
    intro hmem
    have hdigit := Nat.isDigit_of_mem_toDigits (by decide) (by decide) hmem
    exact absurd hdigit (by decide)
  rw [Int.toString_eq_repr, Int.repr_eq_if]
  split
  · rw [Nat.toList_repr]
    exact hdigits _
  · rw [String.toList_append, Nat.toList_repr]
    simp [hdigits]

/-! ## Keys -/

/-- A text with a place behind it. -/
def placed (front : String) (place : Position) : String :=
  front ++ ":" ++ toString place.line ++ ":" ++ toString place.column

theorem placed_inj {x y : String} {p q : Position} : placed x p = placed y q ↔ x = y ∧ p = q := by
  have htoList (x : String) (p : Position) : (placed x p).toList =
      (x.toList ++ ':' :: (toString p.line).toList) ++ ':' :: (toString p.column).toList := by
    simp [placed]
  rw [← String.toList_inj, htoList, htoList,
    append_cons_inj_of_last (colon_not_mem_toString _) (colon_not_mem_toString _),
    append_cons_inj_of_last (colon_not_mem_toString _) (colon_not_mem_toString _), String.toList_inj,
    String.toList_inj, String.toList_inj, Int.toString_eq_repr, Int.toString_eq_repr, Int.toString_eq_repr,
    Int.toString_eq_repr, Int.repr_inj, Int.repr_inj, and_assoc, Position.mk.injEq]

theorem symbolKey_eq (s : Symbol) :
    symbolKey s = placed ("sym:" ++ s.kind.name ++ ":" ++ s.name) s.first := rfl

theorem referenceKey_eq (id : String) (place : Position) : referenceKey id place = placed ("ref:" ++ id) place :=
  rfl

namespace SymbolKind

variable {kind kind' : SymbolKind}

theorem colon_not_mem_name (h : kind.isKnown = true) : ':' ∉ kind.name.toList := by
  have hall : ∀ kind ∈ all, ':' ∉ kind.name.toList := by decide
  exact hall kind (List.contains_iff_mem.mp h)

theorem name_inj (h : kind.isKnown = true) (h' : kind'.isKnown = true) : kind.name = kind'.name ↔ kind = kind' := by
  have hall : ∀ kind ∈ all, ∀ kind' ∈ all, kind.name = kind'.name → kind = kind' := by decide
  exact ⟨hall kind (List.contains_iff_mem.mp h) kind' (List.contains_iff_mem.mp h'), congrArg name⟩

end SymbolKind

theorem symbolKey_eq_iff {s t : Symbol} (hs : s.kind.isKnown = true) (ht : t.kind.isKnown = true) :
    symbolKey s = symbolKey t ↔ s.kind = t.kind ∧ s.name = t.name ∧ s.first = t.first := by
  have htoList (s : Symbol) : ("sym:" ++ s.kind.name ++ ":" ++ s.name).toList =
      "sym:".toList ++ (s.kind.name.toList ++ ':' :: s.name.toList) := by
    simp
  rw [symbolKey_eq, symbolKey_eq, placed_inj, ← String.toList_inj, htoList, htoList, List.append_right_inj,
    append_cons_inj_of_first (SymbolKind.colon_not_mem_name hs) (SymbolKind.colon_not_mem_name ht),
    String.toList_inj, String.toList_inj, SymbolKind.name_inj hs ht, and_assoc]

theorem referenceKey_eq_iff {id id' : String} {p q : Position} :
    referenceKey id p = referenceKey id' q ↔ id = id' ∧ p = q := by
  rw [referenceKey_eq, referenceKey_eq, placed_inj, ← String.toList_inj, String.toList_append,
    String.toList_append, List.append_right_inj, String.toList_inj]

theorem symbolKey_ne_referenceKey (s : Symbol) (id : String) (place : Position) :
    symbolKey s ≠ referenceKey id place := by
  intro h
  rw [symbolKey_eq, referenceKey_eq, placed_inj] at h
  have hfirst := congrArg (fun text => text.toList.head?) h.1
  simp at hfirst

/-- The identifier of a node that can stand in the key of an edge. -/
def EndsPlain (id : String) : Prop := '>' ∉ id.toList ∧ ':' ∉ id.toList

theorem edgeKey_eq_iff {a b a' b' : String} {kind kind' : EdgeKind} (ha : EndsPlain a) (hb : EndsPlain b)
    (ha' : EndsPlain a') (hb' : EndsPlain b') :
    edgeKey a b kind = edgeKey a' b' kind' ↔ a = a' ∧ b = b' ∧ kind.name = kind'.name := by
  have htoList (a b : String) (kind : EdgeKind) :
      (edgeKey a b kind).toList = a.toList ++ '>' :: (b.toList ++ ':' :: kind.name.toList) := by
    simp [edgeKey]
  rw [← String.toList_inj, htoList, htoList, append_cons_inj_of_first ha.1 ha'.1,
    append_cons_inj_of_first hb.2 hb'.2, String.toList_inj, String.toList_inj, String.toList_inj]

theorem fileKey_eq_iff {project project' path path' : String} (h : '\x00' ∉ project.toList)
    (h' : '\x00' ∉ project'.toList) :
    fileKey project path = fileKey project' path' ↔ project = project' ∧ path = path' := by
  have htoList (project path : String) :
      (fileKey project path).toList = project.toList ++ '\x00' :: path.toList := by
    simp [fileKey]
  rw [← String.toList_inj, htoList, htoList, append_cons_inj_of_first h h', String.toList_inj, String.toList_inj]

/-! ## How identifiers are written -/

theorem toList_hexOfBytes (bytes : List UInt8) : (hexOfBytes bytes).toList =
    bytes.flatMap fun b => [hexDigit (b.toNat / 16), hexDigit (b.toNat % 16)] := by
  have hfold (start : String) : (bytes.foldl (fun out b =>
      (out.push (hexDigit (b.toNat / 16))).push (hexDigit (b.toNat % 16))) start).toList =
      start.toList ++ bytes.flatMap fun b => [hexDigit (b.toNat / 16), hexDigit (b.toNat % 16)] := by
    induction bytes generalizing start with
    | nil => simp
    | cons b rest ih => simp [ih]
  exact (hfold "").trans (by simp)

theorem hexDigit_inj {m n : Nat} (hm : m < 16) (hn : n < 16) : hexDigit m = hexDigit n ↔ m = n := by
  have hall : ∀ m < 16, ∀ n < 16, hexDigit m = hexDigit n → m = n := by decide
  exact ⟨hall m hm n hn, congrArg hexDigit⟩

theorem hexOfBytes_inj {bytes others : List UInt8} : hexOfBytes bytes = hexOfBytes others ↔ bytes = others := by
  refine ⟨fun h => ?_, congrArg hexOfBytes⟩
  rw [← String.toList_inj, toList_hexOfBytes, toList_hexOfBytes] at h
  induction bytes generalizing others with
  | nil =>
      cases others with
      | nil => rfl
      | cons b others => simp at h
  | cons a bytes ih =>
      cases others with
      | nil => simp at h
      | cons b others =>
          simp only [List.flatMap_cons, List.cons_append, List.nil_append, List.cons.injEq] at h
          obtain ⟨hhigh, hlow, hrest⟩ := h
          have ha : a.toNat < 256 := a.toNat_lt
          have hb : b.toNat < 256 := b.toNat_lt
          rw [hexDigit_inj (by omega) (by omega)] at hhigh hlow
          have hbyte : a.toNat = b.toNat := by omega
          rw [UInt8.toNat_inj.mp hbyte, ih hrest]

theorem exists_digit_of_mem_hexOfBytes {bytes : List UInt8} {c : Char} (hc : c ∈ (hexOfBytes bytes).toList) :
    ∃ n < 16, c = hexDigit n := by
  rw [toList_hexOfBytes] at hc
  obtain ⟨b, -, hc⟩ := List.mem_flatMap.mp hc
  have hb : b.toNat < 256 := b.toNat_lt
  rcases List.mem_cons.mp hc with rfl | hc
  · exact ⟨b.toNat / 16, by omega, rfl⟩
  · exact ⟨b.toNat % 16, by omega, List.mem_singleton.mp hc⟩

namespace Uuid

theorem hyphen_not_mem_hex (id : Uuid) : '-' ∉ (hexOfBytes id.bytes).toList := by
  intro hmem
  obtain ⟨n, hn, hdigit⟩ := exists_digit_of_mem_hexOfBytes hmem
  have hnone : ∀ n < 16, '-' ≠ hexDigit n := by decide
  exact hnone n hn hdigit

/-- The digits stand between hyphens, in their order. -/
theorem filter_toString (id : Uuid) : id.toString.toList.filter (· != '-') = (hexOfBytes id.bytes).toList := by
  unfold toString
  dsimp only
  generalize hhex : (hexOfBytes id.bytes).toList = hex
  have hkept {part : List Char} (hpart : part ⊆ hex) : part.filter (· != '-') = part := by
    rw [List.filter_eq_self]
    intro c hc
    rw [bne_iff_ne]
    rintro rfl
    exact id.hyphen_not_mem_hex (hhex ▸ hpart hc)
  have hpiece (m n : Nat) : ((hex.drop m).take n).filter (· != '-') = (hex.drop m).take n :=
    hkept fun c hc => List.mem_of_mem_drop (List.mem_of_mem_take hc)
  have hjoin (m n : Nat) : (hex.drop m).take n ++ hex.drop (m + n) = hex.drop m := by
    rw [← List.drop_drop, List.take_append_drop]
  calc
    _ = hex.take 8 ++ ((hex.drop 8).take 4 ++ ((hex.drop 12).take 4 ++ ((hex.drop 16).take 4 ++ hex.drop 20))) := by
      simp [hpiece, hkept (List.take_subset 8 hex), hkept (List.drop_subset 20 hex)]
    _ = hex := by
      rw [hjoin 16 4, hjoin 12 4, hjoin 8 4, List.take_append_drop]

theorem toString_inj {id id' : Uuid} : id.toString = id'.toString ↔ id = id' := by
  refine ⟨fun h => ?_, congrArg toString⟩
  have hbytes : hexOfBytes id.bytes = hexOfBytes id'.bytes := by
    rw [← String.toList_inj, ← filter_toString, ← filter_toString, h]
  cases id
  cases id'
  rw [hexOfBytes_inj] at hbytes
  exact congrArg mk hbytes

/-- An identifier has nothing but digits and hyphens, so none of the separators of keys. -/
theorem not_mem_toString (id : Uuid) {c : Char} (hc : c = '>' ∨ c = ':' ∨ c = '\x00') : c ∉ id.toString.toList := by
  intro hmem
  have hother : c ≠ '-' := by rcases hc with rfl | rfl | rfl <;> decide
  have hhex : c ∈ (hexOfBytes id.bytes).toList := by
    rw [← filter_toString]
    exact List.mem_filter.mpr ⟨hmem, by simpa using hother⟩
  obtain ⟨n, hn, hdigit⟩ := exists_digit_of_mem_hexOfBytes hhex
  have hnone : ∀ n < 16, hexDigit n ≠ '>' ∧ hexDigit n ≠ ':' ∧ hexDigit n ≠ '\x00' := by decide
  obtain ⟨harrow, hcolon, hzero⟩ := hnone n hn
  rcases hc with rfl | rfl | rfl
  · exact harrow hdigit.symm
  · exact hcolon hdigit.symm
  · exact hzero hdigit.symm

/-- Different names among these are given different identifiers. -/
def Spread (space : Uuid) (names : List String) : Prop :=
  ∀ a ∈ names, ∀ b ∈ names, a ≠ b → ofName space a ≠ ofName space b

instance (space : Uuid) (names : List String) : Decidable (space.Spread names) :=
  inferInstanceAs (Decidable (∀ a ∈ names, ∀ b ∈ names, a ≠ b → ofName space a ≠ ofName space b))

theorem Spread.toString_ofName_inj {space : Uuid} {names : List String} (h : space.Spread names) {a b : String}
    (ha : a ∈ names) (hb : b ∈ names) : (ofName space a).toString = (ofName space b).toString ↔ a = b := by
  rw [toString_inj]
  exact ⟨fun hid => by_contra fun hne => h a ha b hb hne hid, congrArg (ofName space)⟩

end Uuid

/-! ## Identifiers -/

/-- The keys of what has been found in a file. -/
def FileSymbols.keys (found : FileSymbols) : List String :=
  found.symbols.map symbolKey ++ found.references.map fun r => referenceKey r.symbolId r.location.first

/-- Each identifier stands for one kind, name and place, or for one place of a symbol. -/
structure FileSymbols.Identified (found : FileSymbols) : Prop where
  symbols : ∀ s ∈ found.symbols, ∀ t ∈ found.symbols,
    s.id = t.id ↔ s.kind = t.kind ∧ s.name = t.name ∧ s.first = t.first
  references : ∀ r ∈ found.references, ∀ r' ∈ found.references,
    r.id = r'.id ↔ r.symbolId = r'.symbolId ∧ r.location.first = r'.location.first
  apart : ∀ s ∈ found.symbols, ∀ r ∈ found.references, s.id ≠ r.id

namespace Extraction

variable {e : Extraction} {file : String}

theorem id_of_mem_symbols {s : Symbol} (hs : s ∈ (e.finish file).symbols) :
    s.id = (Uuid.ofName (fileSpace file) (symbolKey s)).toString := by
  rw [finish_symbols] at hs
  obtain ⟨s', -, hs'⟩ := List.mem_map.mp hs
  subst hs'
  unfold finishSymbol symbolKey
  rfl

theorem id_of_mem_references {r : Reference} (hr : r ∈ (e.finish file).references) :
    r.id = (Uuid.ofName (fileSpace file) (referenceKey r.symbolId r.location.first)).toString := by
  rw [finish_references] at hr
  obtain ⟨u, -, hu⟩ := List.mem_filterMap.mp hr
  obtain ⟨target, -, hr'⟩ := Option.map_eq_some_iff.mp hu
  subst hr'
  simp only [referenceTo]

theorem isKnown_of_mem_symbols (hknown : ∀ s ∈ e.symbols, s.kind.isKnown = true) {s : Symbol}
    (hs : s ∈ (e.finish file).symbols) : s.kind.isKnown = true := by
  rw [finish_symbols] at hs
  obtain ⟨s', hs', heq⟩ := List.mem_map.mp hs
  subst heq
  simp only [finishSymbol]
  exact hknown s' hs'

theorem identified_finish (hknown : ∀ s ∈ e.symbols, s.kind.isKnown = true)
    (hspread : (fileSpace file).Spread (e.finish file).keys) : (e.finish file).Identified := by
  have hsymbol {s : Symbol} (hs : s ∈ (e.finish file).symbols) : symbolKey s ∈ (e.finish file).keys :=
    List.mem_append_left _ (List.mem_map_of_mem hs)
  have hreference {r : Reference} (hr : r ∈ (e.finish file).references) :
      referenceKey r.symbolId r.location.first ∈ (e.finish file).keys :=
    List.mem_append_right _ (List.mem_map_of_mem hr)
  constructor
  case symbols =>
    intro s hs t ht
    rw [id_of_mem_symbols hs, id_of_mem_symbols ht, hspread.toString_ofName_inj (hsymbol hs) (hsymbol ht)]
    exact symbolKey_eq_iff (isKnown_of_mem_symbols hknown hs) (isKnown_of_mem_symbols hknown ht)
  case references =>
    intro r hr r' hr'
    rw [id_of_mem_references hr, id_of_mem_references hr',
      hspread.toString_ofName_inj (hreference hr) (hreference hr')]
    exact referenceKey_eq_iff
  case apart =>
    intro s hs r hr
    rw [id_of_mem_symbols hs, id_of_mem_references hr, Ne, hspread.toString_ofName_inj (hsymbol hs) (hreference hr)]
    exact symbolKey_ne_referenceKey s r.symbolId r.location.first

end Extraction

namespace SymbolGraph

def edgeKeys (g : SymbolGraph) : List String := g.edges.map fun e => edgeKey e.source e.target e.kind

variable {g : SymbolGraph} {links : List Link}

theorem Records.id_eq (h : g.Records links) {e : Edge} (he : e ∈ g.edges) :
    e.id = edgeId e.source e.target e.kind := by
  rw [h.edges] at he
  let holds (e : Edge) (_ : List Link) : Prop := e.id = edgeId e.source e.target e.kind
  have first (l : Link) : holds (.ofLink l) [l] := rfl
  have next (e : Edge) (links : List Link) (l : Link) (hid : holds e links) :
      holds (e.absorb l) (links ++ [l]) := hid
  exact of_mem_merged first next he

/-- An edge is told by its identifier, if the identifiers of nodes have none of the separators. -/
theorem Records.relation_of_id_eq (h : g.Records links) (hplain : ∀ n ∈ g.nodes, EndsPlain n.symbolId)
    (hspread : edgeNames.Spread g.edgeKeys) {e e' : Edge} (he : e ∈ g.edges) (he' : e' ∈ g.edges)
    (hid : e.id = e'.id) : e.source = e'.source ∧ e.target = e'.target ∧ e.kind.name = e'.kind.name := by
  have hends {id : String} (hnode : g.hasNode id = true) : EndsPlain id := by
    obtain ⟨n, hn, rfl⟩ := List.mem_map.mp (hasNode_iff.mp hnode)
    exact hplain n hn
  rw [h.id_eq he, h.id_eq he', edgeId, edgeId,
    hspread.toString_ofName_inj (List.mem_map_of_mem he) (List.mem_map_of_mem he')] at hid
  obtain ⟨hsource, htarget, -⟩ := h.ends_of_mem he
  obtain ⟨hsource', htarget', -⟩ := h.ends_of_mem he'
  exact (edgeKey_eq_iff (hends hsource) (hends htarget) (hends hsource') (hends htarget')).mp hid

end SymbolGraph

/-- Keys tell all their fields. A key of a symbol tells the kind, the name and the place, whatever characters
the name has; that of a reference tells its symbol and place, and no key is both. A key of an edge tells both ends
and the kind as long as the ends have neither of its separators, and a key of a file tells the project and the
path as long as the project has no zero character; derived identifiers have none of these. So where different
keys have different identifiers, the symbols and references of a file are told by theirs, and so are the edges
of a graph and the files of projects. -/
theorem keys_tell_apart :
    (∀ s t : Symbol, s.kind.isKnown = true → t.kind.isKnown = true →
      (symbolKey s = symbolKey t ↔ s.kind = t.kind ∧ s.name = t.name ∧ s.first = t.first)) ∧
    (∀ id id' place place', referenceKey id place = referenceKey id' place' ↔ id = id' ∧ place = place') ∧
    (∀ s id place, symbolKey s ≠ referenceKey id place) ∧
    (∀ a b a' b' kind kind', EndsPlain a → EndsPlain b → EndsPlain a' → EndsPlain b' →
      (edgeKey a b kind = edgeKey a' b' kind' ↔ a = a' ∧ b = b' ∧ kind.name = kind'.name)) ∧
    (∀ project project' path path', '\x00' ∉ project.toList → '\x00' ∉ project'.toList →
      (fileKey project path = fileKey project' path' ↔ project = project' ∧ path = path')) ∧
    (∀ id : Uuid, EndsPlain id.toString ∧ '\x00' ∉ id.toString.toList) ∧
    (∀ (e : Extraction) (file : String), (∀ s ∈ e.symbols, s.kind.isKnown = true) →
      (fileSpace file).Spread (e.finish file).keys → (e.finish file).Identified) ∧
    (∀ calls : List GraphCall,
      let g := SymbolGraph.after calls
      (∀ n ∈ g.nodes, EndsPlain n.symbolId) → edgeNames.Spread g.edgeKeys →
        ∀ e ∈ g.edges, ∀ e' ∈ g.edges, e.id = e'.id →
          e.source = e'.source ∧ e.target = e'.target ∧ e.kind.name = e'.kind.name) ∧
    ∀ files : List (String × String), (∀ f ∈ files, '\x00' ∉ f.1.toList) →
      fileNames.Spread (files.map fun f => fileKey f.1 f.2) →
        ∀ f ∈ files, ∀ f' ∈ files, fileId f.1 f.2 = fileId f'.1 f'.2 → f = f' := by
  refine ⟨fun s t => symbolKey_eq_iff, fun id id' place place' => referenceKey_eq_iff, symbolKey_ne_referenceKey,
    fun a b a' b' kind kind' => edgeKey_eq_iff, fun project project' path path' => fileKey_eq_iff,
    fun id => ⟨⟨id.not_mem_toString (.inl rfl), id.not_mem_toString (.inr (.inl rfl))⟩,
      id.not_mem_toString (.inr (.inr rfl))⟩,
    fun e file => Extraction.identified_finish, fun calls => ?_,
    fun files hplain hspread f hf f' hf' hid => ?_⟩
  · intro g hplain hspread e he e' he'
    exact (SymbolGraph.records_after calls).relation_of_id_eq hplain hspread he he'
  · rw [fileId, fileId, hspread.toString_ofName_inj
      (List.mem_map_of_mem (f := fun f : String × String => fileKey f.1 f.2) hf)
      (List.mem_map_of_mem (f := fun f : String × String => fileKey f.1 f.2) hf'),
      fileKey_eq_iff (hplain f hf) (hplain f' hf')] at hid
    exact Prod.ext hid.1 hid.2

/-- Two functions, of which one has a name that looks like the end of a key, and a call of the other. -/
def awkwardNames : Extraction where
  symbols :=
    [⟨"", "", "at:1", .function, ⟨2, 3⟩, ⟨2, 9⟩, "", "", "", []⟩,
      ⟨"", "", "at", .function, ⟨1, 2⟩, ⟨1, 9⟩, "", "", "", []⟩]
  usages := [⟨"at", ⟨"", ⟨4, 1⟩, ⟨4, 3⟩⟩, .call, "at()"⟩]

def awkwardFile : String := "00000000-0000-4000-8000-000000000001"

theorem awkwardNames_told_apart :
    ((∀ s ∈ awkwardNames.symbols, s.kind.isKnown = true) ∧
      (fileSpace awkwardFile).Spread (awkwardNames.finish awkwardFile).keys) ∧
      (awkwardNames.finish awkwardFile).Identified := by
  have hknown : ∀ s ∈ awkwardNames.symbols, s.kind.isKnown = true := by decide
  have hspread : (fileSpace awkwardFile).Spread (awkwardNames.finish awkwardFile).keys := by decide +kernel
  obtain ⟨-, -, -, -, -, -, hfound, -⟩ := keys_tell_apart
  exact ⟨⟨hknown, hspread⟩, hfound awkwardNames awkwardFile hknown hspread⟩

end CodeAtlas
