import CodeAtlas.Proofs.Graph.Observed

/-!
# Calls

Which calls there are can be told from the usages alone. A usage contributes a call where it has a callable
symbol around it and its name has a meaning: the first callable symbol of that name in the file, or else the
first type, and failing both the same among the symbols of the project. An edge for calls counts the usages
that contribute to it and has their places, in the order of the files and of the usages in each.
-/

namespace CodeAtlas

/-- The place of a usage, with the file that it is in. -/
def Usage.placeIn (u : Usage) (f : FileRecord) : Location :=
  if u.location.fileId == "" then { u.location with fileId := f.fileId } else u.location

namespace Build

/-- The first callable symbol, or else the first type. -/
def calledAmong? (candidates : List Symbol) : Option Symbol :=
  candidates.find? (·.kind.isCallable) <|> candidates.find? (·.kind.isTypeLike)

/-- What a called name means in a file. -/
def called? (files : List FileRecord) (f : FileRecord) (name : String) : Option Symbol :=
  calledAmong? ((symbolsOfFile files f.fileId).filter (·.name == name)) <|>
    calledAmong? ((symbolsOfProject files f.projectId).filter (·.name == name))

/-- The kind of the edges to a symbol that is called. -/
def callKind (target : Symbol) : EdgeKind :=
  if target.kind.isTypeLike then .instantiates else .calls

/-- Whether a usage in a file is a call from one symbol to another one. -/
def contributes (files : List FileRecord) (a b : String) (kind : EdgeKind) (f : FileRecord)
    (u : Usage) : Bool :=
  u.kind == .call && a != b &&
    (enclosing? f.symbols u.location.first true).any (·.id == a) &&
    (called? files f u.name).any fun target => target.id == b && callKind target == kind

/-- The usages that contribute to an edge, each with its file. -/
def contributions (files : List FileRecord) (a b : String) (kind : EdgeKind) :
    List (FileRecord × Usage) :=
  files.flatMap fun f => (f.usages.filter (contributes files a b kind f)).map (f, ·)

def isCallKind (kind : EdgeKind) : Bool := kind == .calls || kind == .instantiates

/-- The observation of a call. -/
def callLink (a b : String) (kind : EdgeKind) (f : FileRecord) (u : Usage) : Link :=
  ⟨a, b, kind, strengthOf kind, some (u.placeIn f),
    ⟨0, isConditional u.context, isLoop u.context, .execute⟩⟩

variable {files : List FileRecord} {f : FileRecord} {u : Usage} {a b : String} {kind : EdgeKind}

/-! ## What a called name means -/

/-- Looking for a better choice among candidates when nothing, a type, or a callable symbol has been
chosen. -/
theorem foldl_best_callRank (candidates : List Symbol) :
    let step := fun (found : Option Symbol × Nat) (s : Symbol) =>
      if callRank s.kind > found.2 then (some s, callRank s.kind) else found
    (∀ s, (candidates.foldl step (some s, 2)).1 = some s) ∧
    (∀ s, (candidates.foldl step (some s, 1)).1 =
      (candidates.find? (·.kind.isCallable) <|> some s)) ∧
    (candidates.foldl step (none, 0)).1 = calledAmong? candidates := by
  intro step
  induction candidates with
  | nil => simp [calledAmong?]
  | cons c rest ih =>
      obtain ⟨htwo, hone, hzero⟩ := ih
      by_cases hcallable : c.kind.isCallable = true
      · have hrank : callRank c.kind = 2 := by simp [callRank, hcallable]
        refine ⟨fun s => ?_, fun s => ?_, ?_⟩
        · simpa [step, hrank] using htwo s
        · simpa [step, hrank, hcallable] using htwo c
        · simpa [step, hrank, hcallable, calledAmong?] using htwo c
      · by_cases htype : c.kind.isTypeLike = true
        · have hrank : callRank c.kind = 1 := by simp [callRank, hcallable, htype]
          refine ⟨fun s => ?_, fun s => ?_, ?_⟩
          · simpa [step, hrank] using htwo s
          · simpa [step, hrank, hcallable] using hone s
          · simpa [step, hrank, hcallable, htype, calledAmong?] using hone c
        · have hrank : callRank c.kind = 0 := by simp [callRank, hcallable, htype]
          refine ⟨fun s => ?_, fun s => ?_, ?_⟩
          · simpa [step, hrank] using htwo s
          · simpa [step, hrank, hcallable] using hone s
          · simpa [step, hrank, hcallable, htype, calledAmong?] using hzero

theorem best?_callRank (candidates : List Symbol) :
    best? callRank candidates = calledAmong? candidates :=
  (foldl_best_callRank candidates).2.2

theorem resolve?_callRank (files : List FileRecord) (f : FileRecord) (name : String) :
    resolve? files f name callRank = called? files f name := by
  unfold resolve? called?
  rw [best?_callRank, best?_callRank]

/-! ## Which observations are calls -/

theorem isCallKind_callKind (target : Symbol) : isCallKind (callKind target) = true := by
  unfold callKind
  split <;> rfl

theorem besidesBases_isCallKind : BesidesBases isCallKind := ⟨rfl, rfl⟩

theorem sourceOf?_call (hcall : u.kind = .call) :
    sourceOf? f u = enclosing? f.symbols u.location.first true := by
  simp [sourceOf?, hcall]

theorem usageLink?_call (hcall : u.kind = .call) :
    usageLink? files f u = (called? files f u.name).map fun target =>
      (callKind target, .execute, target) := by
  unfold usageLink?
  rw [hcall]
  simp only [resolve?_callRank]
  cases called? files f u.name <;> rfl

theorem ofUsage?_call (hcall : u.kind = .call) :
    ofUsage? files f u = (enclosing? f.symbols u.location.first true).bind fun source =>
      (called? files f u.name).map fun target =>
        callLink source.id target.id (callKind target) f u := by
  unfold ofUsage?
  rw [sourceOf?_call hcall, usageLink?_call hcall]
  cases enclosing? f.symbols u.location.first true with
  | none => rfl
  | some source => cases called? files f u.name <;> rfl

/-- Only calls are observed as edges for calls. -/
theorem isCallKind_of_ofUsage? {l : Link} (h : ofUsage? files f u = some l)
    (hcall : u.kind ≠ .call) : isCallKind l.kind = false := by
  rcases kinds_of_ofUsage? h with ⟨huse, -⟩ | ⟨-, hkind | hkind⟩ | ⟨-, hkind⟩
  · exact absurd huse hcall
  all_goals
    rw [hkind]
    rfl

/-- A usage is observed as a call from one symbol to another one if and only if it contributes. -/
theorem filter_ofUsage? :
    (ofUsage? files f u).filter (fun l => isNoted isCallKind l && l.relation == (a, b, kind)) =
      if contributes files a b kind f u then some (callLink a b kind f u) else none := by
  unfold contributes
  by_cases hcall : u.kind = .call
  · rw [ofUsage?_call hcall]
    cases enclosing? f.symbols u.location.first true with
    | none => simp
    | some source =>
        cases called? files f u.name with
        | none => simp
        | some target =>
            by_cases hrelation : source.id = a ∧ target.id = b ∧ callKind target = kind
            · obtain ⟨rfl, rfl, rfl⟩ := hrelation
              by_cases hne : source.id = target.id
              all_goals
                simp [hcall, hne, isNoted, callLink, Link.relation, isCallKind_callKind,
                  Option.filter]
            · have hother : ((callLink source.id target.id (callKind target) f u).relation ==
                  (a, b, kind)) = false := by
                simpa [callLink, Link.relation] using hrelation
              have hnot : ¬(a ≠ b ∧ source.id = a ∧ target.id = b ∧ callKind target = kind) :=
                fun h => hrelation h.2
              simpa [Option.filter, hother, hcall, and_assoc] using hnot
  · cases hlink : ofUsage? files f u with
    | none => simp [hcall]
    | some l => simp [hcall, isNoted, isCallKind_of_ofUsage? hlink hcall]

/-- Declarations are not observed as calls. -/
theorem isCallKind_of_mem_declared {s : Symbol} {l : Link} (h : l ∈ declared files f s) :
    isCallKind l.kind = false := by
  rcases List.mem_append.mp h with h | h
  · split at h
    · obtain ⟨target, -, rfl⟩ := List.mem_map.mp h
      rfl
    · cases h
  · have howner := Option.mem_toList.mp h
    unfold containment? at howner
    split at howner
    · cases howner
    · obtain ⟨owner, -, rfl⟩ := Option.map_eq_some_iff.mp howner
      rfl

theorem mem_contributions {c : FileRecord × Usage} : c ∈ contributions files a b kind ↔
    c.1 ∈ files ∧ c.2 ∈ c.1.usages ∧ contributes files a b kind c.1 c.2 = true := by
  obtain ⟨f, u⟩ := c
  simp only [contributions, List.mem_flatMap, List.mem_map, List.mem_filter, Prod.mk.injEq]
  constructor
  · rintro ⟨g, hg, v, ⟨hv, hcontributes⟩, rfl, rfl⟩
    exact ⟨hg, hv, hcontributes⟩
  · rintro ⟨hf, hu, hcontributes⟩
    exact ⟨f, hf, u, ⟨hu, hcontributes⟩, rfl, rfl⟩

/-- What the files tell of calls from one symbol to another one are the usages that contribute. -/
theorem filter_observed (files : List FileRecord) (a b : String) (kind : EdgeKind) :
    ((files.flatMap (observed files)).filter (isNoted isCallKind)).filter
        (fun l => l.relation == (a, b, kind)) =
      (contributions files a b kind).map fun c => callLink a b kind c.1 c.2 := by
  have hfile (f : FileRecord) : (observed files f).filter
        (fun l => isNoted isCallKind l && l.relation == (a, b, kind)) =
      (f.usages.filter (contributes files a b kind f)).map (callLink a b kind f) := by
    have hdeclared : (f.symbols.flatMap (declared files f)).filter
        (fun l => isNoted isCallKind l && l.relation == (a, b, kind)) = [] := by
      refine List.filter_eq_nil_iff.mpr fun l hl => ?_
      obtain ⟨s, -, hl⟩ := List.mem_flatMap.mp hl
      simp [isNoted, isCallKind_of_mem_declared hl]
    unfold observed
    rw [List.filter_append, hdeclared, List.append_nil, List.filter_filterMap]
    simp only [filter_ofUsage?]
    rw [← List.filterMap_eq_map, ← List.filterMap_eq_filter, List.filterMap_filterMap]
    refine List.filterMap_congr fun u _ => ?_
    by_cases hu : contributes files a b kind f u = true <;> simp [hu, Option.guard]
  unfold contributions
  rw [List.filter_filter, List.filter_flatMap, List.map_flatMap]
  simp only [Bool.and_comm (_ == _), hfile, List.map_map, Function.comp_def]

/-- The files tell of a call from one symbol to another one if and only if some usage contributes. -/
theorem exists_observed_iff (files : List FileRecord) (a b : String) (kind : EdgeKind) :
    (∃ l ∈ (files.flatMap (observed files)).filter (isNoted isCallKind), l.relation = (a, b, kind)) ↔
      ∃ f ∈ files, ∃ u ∈ f.usages, contributes files a b kind f u = true := by
  have hcall (l : Link) : l ∈ (files.flatMap (observed files)).filter (isNoted isCallKind) ∧
      l.relation = (a, b, kind) ↔ ∃ c ∈ contributions files a b kind, callLink a b kind c.1 c.2 = l := by
    rw [← List.mem_map, ← filter_observed]
    simp only [List.mem_filter, beq_iff_eq]
  simp only [hcall]
  constructor
  · rintro ⟨-, c, hc, -⟩
    obtain ⟨hf, hu, hcontributes⟩ := mem_contributions.mp hc
    exact ⟨c.1, hf, c.2, hu, hcontributes⟩
  · rintro ⟨f, hf, u, hu, hcontributes⟩
    exact ⟨_, (f, u), mem_contributions.mpr ⟨hf, hu, hcontributes⟩, rfl⟩

end Build

/-- What an edge tells of observations, with their circumstances, and however many single calls they are. -/
structure Edge.Sums (e : Edge) (links : List Link) : Prop extends e.Merges links where
  conditional : e.context.conditional = links.any (·.context.conditional)
  inLoop : e.context.inLoop = links.any (·.context.inLoop)
  single : (∀ l ∈ links, l.count = 1) → e.context.callCount = wrap64 links.length

theorem Edge.sums_ofLink (l : Link) : (ofLink l).Sums [l] where
  toMerges := merges_ofLink l
  conditional := by simp [ofLink]
  inLoop := by simp [ofLink]
  single hone := by
    rw [List.length_singleton, Nat.cast_one, wrap64_eq_self Int.one_nonneg (by decide)]
    exact hone l (by simp)

theorem Edge.Sums.absorb {e : Edge} {links : List Link} (h : e.Sums links) (l : Link) :
    (e.absorb l).Sums (links ++ [l]) where
  toMerges := h.toMerges.absorb l
  conditional := by simp [Edge.absorb, h.conditional]
  inLoop := by simp [Edge.absorb, h.inLoop]
  single hone := by
    have hbefore := h.single fun k hk => hone k (List.mem_append_left _ hk)
    have hlast := hone l (by simp)
    unfold Edge.absorb
    dsimp only
    rw [hbefore, hlast, List.length_append, List.length_singleton, Nat.cast_add, Nat.cast_one]
    exact Int.bmod_add_bmod

namespace SymbolGraph

open Build

/-- There is an edge of calls from one symbol to another one if and only if some usage contributes to it. The
edge counts the contributing usages, in a signed 64-bit number, it has their places in the order of the files
and of the usages in each, and it is conditional, or in a loop, if one of them is. -/
theorem call_edges (files : List FileRecord) (a b : String) (kind : EdgeKind)
    (hkind : kind = .calls ∨ kind = .instantiates) :
    ((∃ e ∈ (build files).edges, e.relation = (a, b, kind)) ↔
      ∃ f ∈ files, ∃ u ∈ f.usages, contributes files a b kind f u = true) ∧
    ∀ e ∈ (build files).edges, e.relation = (a, b, kind) →
      let found := contributions files a b kind
      e.context.callCount = wrap64 found.length ∧
        (found.length < signedLimit → e.context.callCount = found.length) ∧
        e.locations = found.map (fun c => c.2.placeIn c.1) ∧
        (e.context.conditional = true ↔ ∃ c ∈ found, isConditional c.2.context = true) ∧
        (e.context.inLoop = true ↔ ∃ c ∈ found, isLoop c.2.context = true) := by
  have hnotes := notes_build files besidesBases_isCallKind
  have hwanted : isCallKind kind = true := by rcases hkind with rfl | rfl <;> rfl
  have hobserved := filter_observed files a b kind
  refine ⟨?_, fun e he hrelation => ?_⟩
  · rw [hnotes.exists_edge_iff hwanted]
    exact exists_observed_iff files a b kind
  · have hekind : e.kind = kind := congrArg (·.2.2) hrelation
    have hsums := hnotes.holds_of_mem Edge.sums_ofLink (fun _ _ l h => h.absorb l) he
      (hekind ▸ hwanted)
    have hfits : (fun l : Link => l.fits e) = fun l => l.relation == (a, b, kind) := by
      funext l
      rw [Bool.eq_iff_iff, Link.fits_iff, hrelation, beq_iff_eq, eq_comm]
    rw [hfits, hobserved] at hsums
    have hcount := hsums.single fun l hl => by
      obtain ⟨c, -, rfl⟩ := List.mem_map.mp hl
      rfl
    rw [List.length_map] at hcount
    refine ⟨hcount, fun hsmall => ?_, ?_, ?_, ?_⟩
    · rw [hcount, wrap64_eq_self (by omega) (by omega)]
    · rw [hsums.places, List.flatMap_map]
      exact List.map_eq_flatMap.symm
    · simp [hsums.conditional, callLink]
    · simp [hsums.inLoop, callLink]

/-- A function that calls another one twice, once in a loop and once on a condition, and a third time from
outside of any function. -/
def callingTwice : List FileRecord :=
  [⟨"main", "p",
      [⟨"run", "", "run", .function, ⟨1, 0⟩, ⟨9, 1⟩, "void run()", "", "", []⟩], [],
      [⟨"step", ⟨"", ⟨2, 4⟩, ⟨2, 8⟩⟩, .call, "while (busy) step();"⟩,
        ⟨"run", ⟨"", ⟨3, 4⟩, ⟨3, 7⟩⟩, .call, "run();"⟩,
        ⟨"step", ⟨"main", ⟨4, 4⟩, ⟨4, 8⟩⟩, .call, "if (late) step();"⟩,
        ⟨"step", ⟨"", ⟨11, 0⟩, ⟨11, 4⟩⟩, .call, "step();"⟩]⟩,
    ⟨"steps", "p",
      [⟨"kind", "", "step", .struct, ⟨1, 0⟩, ⟨1, 20⟩, "struct step", "", "", []⟩,
        ⟨"step", "", "step", .function, ⟨2, 0⟩, ⟨4, 1⟩, "void step()", "", "", []⟩], [], []⟩]

theorem call_edges_calling_twice :
    (EdgeKind.calls = .calls ∨ EdgeKind.calls = .instantiates) ∧
      ∃ e ∈ (build callingTwice).edges, e.relation = ("run", "step", .calls) ∧
        e.context.callCount = 2 ∧
        e.locations = [⟨"main", ⟨2, 4⟩, ⟨2, 8⟩⟩, ⟨"main", ⟨4, 4⟩, ⟨4, 8⟩⟩] ∧
        e.context.conditional = true ∧ e.context.inLoop = true := by
  obtain ⟨hedge, htells⟩ := call_edges callingTwice "run" "step" .calls (.inl rfl)
  obtain ⟨e, he, hrelation⟩ := hedge.mpr (by decide +kernel)
  obtain ⟨-, hcount, hplaces, hconditional, hloop⟩ := htells e he hrelation
  have hlength : (contributions callingTwice "run" "step" .calls).length = 2 := by decide +kernel
  have hsmall : (contributions callingTwice "run" "step" .calls).length < signedLimit := by
    rw [hlength]
    decide
  refine ⟨.inl rfl, e, he, hrelation, ?_, ?_, hconditional.mpr (by decide +kernel),
    hloop.mpr (by decide +kernel)⟩
  · rw [hcount hsmall, hlength]
    rfl
  · rw [hplaces]
    decide +kernel

end SymbolGraph

end CodeAtlas
