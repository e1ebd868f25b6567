import CodeAtlas.Index.Store
import CodeAtlas.Proofs.Index.Rows
import Mathlib.Order.Lattice

/-!
# Which migrations are run

An index notes the versions that its layout has been brought to, in rows that stand in no order. Those
migrations are run that are higher than each noted version. For this the order of versions has to be
transitive: they are compared number by number and then by their marks, part by part, where parts that are
missing count as empty ones, so that two marks filled up to one length are compared like two words.

A migration that succeeds is noted, and then none is left to run. Migrations change the layout and the text
index of symbols, and no other rows but the notes.
-/

namespace CodeAtlas

namespace Version

open Std

/-- A part is empty, a number or a text. -/
def partSort (part : String) : Nat :=
  if part == "" then 0 else if (partNumber? part).isSome then 1 else 2

def partValue (part : String) : Nat := (partNumber? part).getD 0

def partText (part : String) : String := if (partNumber? part).isSome then "" else part

theorem partNumber?_empty : partNumber? "" = none := rfl

/-- Parts are compared by their sorts, then as numbers, and then as texts. -/
theorem comparePart_eq :
    comparePart =
      compareLex (compareOn partSort) (compareLex (compareOn partValue) (compareOn partText)) := by
  funext a b
  unfold compareLex compareOn
  by_cases heq : a = b
  · simp [comparePart, heq]
  · unfold comparePart partSort partValue partText
    by_cases ha : a = ""
    · subst ha
      cases hnumber : partNumber? b <;> simp [heq, Ne.symm heq, partNumber?_empty] <;> rfl
    · by_cases hb : b = ""
      · subst hb
        cases hnumber : partNumber? a <;> simp [heq, partNumber?_empty] <;> rfl
      · cases partNumber? a <;> cases partNumber? b <;> simp [heq, ha, hb] <;> rfl

instance : TransCmp comparePart := by
  rw [comparePart_eq]
  infer_instance

/-- Marks are compared like words once they are filled up with empty parts. -/
theorem compareParts_eq {n : Nat} {as bs : List String} (ha : as.length ≤ n) (hb : bs.length ≤ n) :
    compareParts as bs = List.compareLex comparePart (as.rightpad n "") (bs.rightpad n "") := by
  have hnil (k : Nat) :
      ([] : List String).rightpad (k + 1) "" = "" :: ([] : List String).rightpad k "" := rfl
  have hcons (k : Nat) (c : String) (cs : List String) :
      (c :: cs).rightpad (k + 1) "" = c :: cs.rightpad k "" := by
    simp [List.rightpad]
  induction n generalizing as bs with
  | zero =>
      rw [List.length_eq_zero_iff.mp (Nat.le_zero.mp ha), List.length_eq_zero_iff.mp (Nat.le_zero.mp hb)]
      simp [compareParts, ReflCmp.compare_self]
  | succ n ih =>
      have hzero : ([] : List String).length ≤ n := Nat.zero_le n
      cases as with
      | nil =>
          cases bs with
          | nil => simp [compareParts, ReflCmp.compare_self]
          | cons b bs => rw [compareParts, ih hzero (by simpa using hb), hnil, hcons,
              List.compareLex_cons_cons]
      | cons a as =>
          cases bs with
          | nil => rw [compareParts, ih (by simpa using ha) hzero, hnil, hcons,
              List.compareLex_cons_cons]
          | cons b bs => rw [compareParts, ih (by simpa using ha) (by simpa using hb), hcons, hcons,
              List.compareLex_cons_cons]

instance : TransCmp compareParts where
  eq_swap {as bs} := by
    rw [compareParts_eq (le_max_left as.length bs.length) (le_max_right _ _),
      compareParts_eq (le_max_right as.length bs.length) (le_max_left _ _)]
    exact OrientedCmp.eq_swap
  isLE_trans {as bs cs} := by
    have ha : as.length ≤ as.length + bs.length + cs.length := by omega
    have hb : bs.length ≤ as.length + bs.length + cs.length := by omega
    have hc : cs.length ≤ as.length + bs.length + cs.length := by omega
    rw [compareParts_eq ha hb, compareParts_eq hb hc, compareParts_eq ha hc]
    exact TransCmp.isLE_trans

theorem compareParts_self (parts : List String) : compareParts parts parts = .eq := ReflCmp.compare_self

/-- Marks are compared only among versions that have one. -/
theorem order_eq : order = compareLex (compareOn major) (compareLex (compareOn minor)
    (compareLex (compareOn patch) (compareLex (compareOn (·.prerelease == ""))
      fun a b => compareParts (splitText '.' a.prerelease) (splitText '.' b.prerelease)))) := by
  funext a b
  unfold order compareLex compareOn
  dsimp only
  cases ha : a.prerelease == "" <;> cases hb : b.prerelease == ""
  case true.true =>
      rw [beq_iff_eq.mp ha, beq_iff_eq.mp hb, compareParts_self]
      rfl
  all_goals rfl

instance : TransCmp fun a b : Version =>
    compareParts (splitText '.' a.prerelease) (splitText '.' b.prerelease) where
  eq_swap {_ _} := @OrientedCmp.eq_swap _ compareParts _ _ _
  isLE_trans {_ _ _} := @TransCmp.isLE_trans _ compareParts _ _ _ _

instance : TransCmp order := by
  rw [order_eq]
  infer_instance

/-! ## The highest version -/

variable {best v m : Version} {versions : List Version}

theorem lessThan_iff : v.lessThan m = true ↔ v.order m = .lt := beq_iff_eq

theorem not_lessThan_self (v : Version) : ¬v.lessThan v = true := by
  have hself : v.order v = .eq := ReflCmp.compare_self
  rw [lessThan_iff, hself]
  decide

theorem lessThan_trans {a b c : Version} (hab : a.lessThan b = true) (hbc : b.lessThan c = true) :
    a.lessThan c = true :=
  lessThan_iff.mpr (TransCmp.lt_trans (lessThan_iff.mp hab) (lessThan_iff.mp hbc))

def higher (best v : Version) : Version := if best.lessThan v then v else best

theorem higher_lessThan_iff :
    (higher best v).lessThan m = true ↔ best.lessThan m = true ∧ v.lessThan m = true := by
  simp only [higher, lessThan_iff]
  split
  · rename_i hless
    exact ⟨fun h => ⟨TransCmp.lt_trans hless h, h⟩, And.right⟩
  · rename_i hnot
    have hle : (v.order best).isLE := OrientedCmp.isGE_iff_isLE.mp (Ordering.isGE_iff_ne_lt.mpr hnot)
    exact ⟨fun h => ⟨h, TransCmp.lt_of_isLE_of_lt hle h⟩, And.left⟩

/-- The highest of some versions is below another one if and only if each of them is. -/
theorem foldl_higher_lessThan_iff : (versions.foldl higher best).lessThan m = true ↔
    best.lessThan m = true ∧ ∀ v ∈ versions, v.lessThan m = true := by
  induction versions generalizing best with
  | nil => simp
  | cons v rest ih =>
      rw [List.foldl_cons, ih, higher_lessThan_iff, List.forall_mem_cons, and_assoc]

theorem foldl_higher_mem : versions.foldl higher best ∈ best :: versions := by
  induction versions generalizing best with
  | nil => simp
  | cons v rest ih =>
      have hmem : rest.foldl higher (higher best v) ∈ higher best v :: rest := ih
      rw [List.foldl_cons, List.mem_cons] at *
      rcases hmem with heq | hmem
      · rw [heq, higher]
        split <;> simp
      · exact .inr (List.mem_cons_of_mem v hmem)

/-- A version above all others is the highest, wherever it stands. -/
theorem foldl_higher_eq (hm : m ∈ versions) (hbest : best.lessThan m = true)
    (hbelow : ∀ v ∈ versions, v = m ∨ v.lessThan m = true) : versions.foldl higher best = m := by
  have hnot : ¬(versions.foldl higher best).lessThan m = true := fun h =>
    not_lessThan_self m ((foldl_higher_lessThan_iff.mp h).2 m hm)
  have hmem : versions.foldl higher best ∈ best :: versions := foldl_higher_mem
  rcases List.mem_cons.mp hmem with heq | hmem
  · rw [heq] at hnot
    exact absurd hbest hnot
  · exact (hbelow _ hmem).resolve_right hnot

end Version

/-- A row notes a version below another one. -/
def isBelow (row : Option String) (m : Version) : Bool :=
  match Database.readVersion row with
  | .ok v => v.lessThan m
  | .error _ => false

namespace Database

/-- The migrations that are higher than every version noted. -/
def pending (db : Database) : List Migration :=
  Migration.all.filter fun m => db.versions.all (isBelow · m.version)

/-- Runs migrations one after the other, up to the first that fails. -/
def migrateAll (db : Database) : List Migration → Database × Except Fault Unit
  | [] => (db, .ok ())
  | m :: rest =>
      match db.migrateUp m with
      | (db, .ok ()) => db.migrateAll rest
      | failed => failed

variable {db db' : Database} {current : Version}

/-! ## The version of an index -/

/-- Where there is no table of versions, there are no rows of it. -/
def VersionsHaveTable (db : Database) : Prop :=
  (∀ t ∈ db.schema.tables, t.1 ≠ "schema_version") → db.versions = []

/-- The versions are those that rows note, in any order. -/
structure Notes (rows : List (Option String)) (versions : List Version) : Prop where
  read : ∀ row ∈ rows, ∃ v ∈ versions, readVersion row = .ok v
  noted : ∀ v ∈ versions, ∃ row ∈ rows, readVersion row = .ok v

theorem notes_of_mapM {rows : List (Option String)} {versions : List Version}
    (h : rows.mapM readVersion = .ok versions) : Notes rows versions := by
  induction rows generalizing versions with
  | nil =>
      obtain rfl := Except.ok.inj h
      exact ⟨by simp, by simp⟩
  | cons row rest ih =>
      rw [List.mapM_cons] at h
      obtain ⟨v, hv, h⟩ := bind_eq_ok_iff.mp h
      obtain ⟨others, hothers, h⟩ := bind_eq_ok_iff.mp h
      obtain rfl := Except.ok.inj h
      obtain ⟨hread, hnoted⟩ := ih hothers
      exact ⟨List.forall_mem_cons.mpr ⟨⟨v, by simp, hv⟩, fun k hk =>
          (hread k hk).imp fun w hw => ⟨List.mem_cons_of_mem v hw.1, hw.2⟩⟩,
        List.forall_mem_cons.mpr ⟨⟨row, by simp, hv⟩, fun w hw =>
          (hnoted w hw).imp fun k hk => ⟨List.mem_cons_of_mem row hk.1, hk.2⟩⟩⟩

theorem exists_mapM_readVersion {rows : List (Option String)}
    (h : ∀ row ∈ rows, ∃ v, readVersion row = .ok v) :
    ∃ versions, rows.mapM readVersion = .ok versions := by
  induction rows with
  | nil => exact ⟨[], rfl⟩
  | cons row rest ih =>
      obtain ⟨v, hv⟩ := h row (by simp)
      obtain ⟨versions, hversions⟩ := ih fun k hk => h k (List.mem_cons_of_mem row hk)
      refine ⟨v :: versions, ?_⟩
      rw [List.mapM_cons, hv, hversions]
      rfl

theorem Notes.of_perm {rows rows' : List (Option String)} {versions : List Version}
    (h : Notes rows versions) (hperm : rows'.Perm rows) : Notes rows' versions where
  read row hrow := h.read row (hperm.mem_iff.mp hrow)
  noted v hv := (h.noted v hv).imp fun _ hrow => ⟨hperm.mem_iff.mpr hrow.1, hrow.2⟩

/-- The version that is found is the highest of those noted. -/
theorem exists_notes_of_currentVersion (hrows : db.VersionsHaveTable)
    (h : db.currentVersion = .ok current) :
    ∃ versions, Notes db.versions versions ∧ versions.foldl Version.higher .zero = current := by
  unfold currentVersion at h
  split at h
  · rename_i hmissing
    have hnone : db.versions = [] := hrows (by simpa using hmissing)
    rw [hnone]
    exact ⟨[], ⟨by simp, by simp⟩, Except.ok.inj h⟩
  · obtain ⟨-, -, h⟩ := bind_eq_ok_iff.mp h
    obtain ⟨versions, hversions, h⟩ := bind_eq_ok_iff.mp h
    exact ⟨versions, (notes_of_mapM hversions).of_perm (List.mergeSort_perm _ _).symm, Except.ok.inj h⟩

theorem has_of_require {s : Schema} {table : String} (h : s.require table = .ok ()) :
    (table, true) ∈ s.tables := by
  unfold Schema.require at h
  split at h
  · rename_i hhas
    exact List.contains_iff_mem.mp hhas
  · cases h

/-- A version is found if there is the table and all its rows can be read. -/
theorem exists_notes_of_readable (hhas : db.schema.require "schema_version" = .ok ())
    (hread : ∀ row ∈ db.versions, ∃ v, readVersion row = .ok v) :
    ∃ versions, Notes db.versions versions ∧
      db.currentVersion = .ok (versions.foldl Version.higher .zero) := by
  have hsorted : ∀ row ∈ db.versions.mergeSort versionOrder, ∃ v, readVersion row = .ok v :=
    fun row hrow => hread row (List.mem_mergeSort.mp hrow)
  obtain ⟨versions, hversions⟩ := exists_mapM_readVersion hsorted
  refine ⟨versions, (notes_of_mapM hversions).of_perm (List.mergeSort_perm _ _).symm, ?_⟩
  have hthere : ¬(db.schema.tables.all (·.1 != "schema_version")) = true := by
    have hmem := has_of_require hhas
    rw [List.all_eq_true]
    exact fun hall => by simpa using hall _ hmem
  unfold currentVersion
  rw [if_neg hthere, hhas, hversions]
  rfl

theorem isBelow_eq {row : Option String} {v m : Version} (h : readVersion row = .ok v) :
    isBelow row m = v.lessThan m := by
  unfold isBelow
  rw [h]

theorem exists_read_of_isBelow {row : Option String} {m : Version} (h : isBelow row m = true) :
    ∃ v, readVersion row = .ok v := by
  unfold isBelow at h
  split at h
  · exact ⟨_, ‹_›⟩
  · cases h

theorem isBelow_trans {row : Option String} {m k : Version} (h : isBelow row m = true)
    (hless : m.lessThan k = true) : isBelow row k = true := by
  obtain ⟨v, hv⟩ := exists_read_of_isBelow h
  rw [isBelow_eq hv] at *
  exact Version.lessThan_trans h hless

theorem Notes.all_isBelow_iff {rows : List (Option String)} {versions : List Version}
    (h : Notes rows versions) (m : Version) :
    rows.all (isBelow · m) = true ↔ ∀ v ∈ versions, v.lessThan m = true := by
  rw [List.all_eq_true]
  constructor
  · intro hall v hv
    obtain ⟨row, hrow, hread⟩ := h.noted v hv
    rw [← isBelow_eq hread]
    exact hall row hrow
  · intro hall row hrow
    obtain ⟨v, hv, hread⟩ := h.read row hrow
    rw [isBelow_eq hread]
    exact hall v hv

/-- The version that is found is below another one if and only if all noted ones are. -/
theorem currentVersion_lessThan_iff (hrows : db.VersionsHaveTable) (h : db.currentVersion = .ok current)
    (m : Version) : current.lessThan m = true ↔
      Version.zero.lessThan m = true ∧ db.versions.all (isBelow · m) = true := by
  obtain ⟨versions, hnotes, rfl⟩ := exists_notes_of_currentVersion hrows h
  rw [Version.foldl_higher_lessThan_iff, hnotes.all_isBelow_iff]

/-- A row notes a version that all other rows are below. -/
structure Tops (row : Option String) (v : Version) (rows : List (Option String)) : Prop where
  mem : row ∈ rows
  reads : readVersion row = .ok v
  others : ∀ other ∈ rows, other ≠ row → isBelow other v = true

theorem currentVersion_of_tops {row : Option String} {v : Version}
    (hhas : db.schema.require "schema_version" = .ok ()) (h : Tops row v db.versions)
    (hpositive : Version.zero.lessThan v = true) : db.currentVersion = .ok v := by
  have hread : ∀ other ∈ db.versions, readVersion other = .ok v ∨ isBelow other v = true := by
    intro other hother
    by_cases heq : other = row
    · exact .inl (heq ▸ h.reads)
    · exact .inr (h.others other hother heq)
  obtain ⟨versions, hnotes, hcurrent⟩ := exists_notes_of_readable hhas fun other hother =>
    (hread other hother).elim (fun h => ⟨v, h⟩) exists_read_of_isBelow
  have hmem : v ∈ versions := by
    obtain ⟨w, hw, heq⟩ := hnotes.read row h.mem
    rwa [Except.ok.inj (h.reads.symm.trans heq)]
  have hbelow : ∀ w ∈ versions, w = v ∨ w.lessThan v = true := by
    intro w hw
    obtain ⟨other, hother, heq⟩ := hnotes.noted w hw
    rcases hread other hother with hsame | hless
    · exact .inl (Except.ok.inj (heq.symm.trans hsame))
    · exact .inr (isBelow_eq heq ▸ hless)
  rw [hcurrent, Version.foldl_higher_eq hmem hpositive hbelow]

/-! ## Which migrations are run -/

theorem migrateFrom_eq {migrations : List Migration} (db : Database) (current : Version)
    (hsorted : migrations.Pairwise fun m k => m.version.lessThan k.version = true) :
    db.migrateFrom current migrations =
      db.migrateAll (migrations.filter fun m => current.lessThan m.version) := by
  induction migrations generalizing db current with
  | nil => rfl
  | cons m rest ih =>
      obtain ⟨hm, hrest⟩ := List.pairwise_cons.mp hsorted
      unfold migrateFrom
      rw [List.filter_cons]
      split
      · rename_i hless
        -- The version found only goes up, but what comes after a migration that is run is run anyway.
        have hlater : rest.filter (fun k => current.lessThan k.version) =
            rest.filter fun k => m.version.lessThan k.version := by
          refine List.filter_congr fun k hk => ?_
          rw [hm k hk, Version.lessThan_trans hless (hm k hk)]
        unfold migrateAll
        rw [hlater]
        rcases db.migrateUp m with ⟨db', _ | ⟨⟩⟩
        · rfl
        · exact ih db' m.version hrest
      · exact ih db current hrest

theorem applyMigrations_eq (hrows : db.VersionsHaveTable) (h : db.currentVersion = .ok current) :
    db.applyMigrations = db.migrateAll db.pending := by
  unfold applyMigrations
  rw [h]
  dsimp only
  rw [migrateFrom_eq db current (by decide)]
  unfold pending
  refine congrArg _ (List.filter_congr fun m hm => ?_)
  have hpositive : ∀ m ∈ Migration.all, Version.zero.lessThan m.version = true := by decide
  rw [Bool.eq_iff_iff, currentVersion_lessThan_iff hrows h, and_iff_right (hpositive m hm)]

theorem readVersion_toString {m : Migration} (hm : m ∈ Migration.all) :
    readVersion (some m.version.toString) = .ok m.version := by
  have hread : ∀ m ∈ Migration.all, readVersion (some m.version.toString) = .ok m.version := by
    decide +kernel
  exact hread m hm

theorem toString_first : Migration.first.version.toString = "1.0.0" := by decide

theorem toString_second : Migration.second.version.toString = "1.1.0" := by decide

theorem readVersion_first : readVersion (some "1.0.0") = .ok Migration.first.version := by
  rw [← toString_first]
  exact readVersion_toString (by simp [Migration.all])

theorem readVersion_second : readVersion (some "1.1.0") = .ok Migration.second.version := by
  rw [← toString_second]
  exact readVersion_toString (by simp [Migration.all])

theorem pending_eq_nil (h : ∃ row ∈ db.versions, readVersion row = .ok Migration.second.version) :
    db.pending = [] := by
  obtain ⟨row, hrow, hread⟩ := h
  refine List.filter_eq_nil_iff.mpr fun m hm hall => ?_
  have hbelow := List.all_eq_true.mp hall row hrow
  rw [isBelow_eq hread] at hbelow
  have hnone : ∀ m ∈ Migration.all, Migration.second.version.lessThan m.version = false := by decide
  rw [hnone m hm] at hbelow
  cases hbelow

/-- Where a migration is run, the last one is run. -/
theorem second_mem_pending (h : db.pending ≠ []) : Migration.second ∈ db.pending := by
  obtain ⟨m, hm⟩ := List.exists_mem_of_ne_nil _ h
  obtain ⟨hmem, hall⟩ := List.mem_filter.mp hm
  refine List.mem_filter.mpr ⟨by simp [Migration.all], ?_⟩
  rcases List.mem_pair.mp hmem with rfl | rfl
  · refine List.all_eq_true.mpr fun row hrow => ?_
    exact isBelow_trans (List.all_eq_true.mp hall row hrow) (by decide)
  · exact hall

/-! ## What migrations leave alone -/

end Database

def SchemaStep.keepsRows : SchemaStep → Bool
  | .dropTable _ => false
  | _ => true

def SymbolRow.bare (row : SymbolRow) : SymbolRow := { row with entry := none }

namespace Database

variable {db db' : Database}

/-- The rows are the same, apart from what the text index of symbols has noted in them. -/
structure SameRows (db db' : Database) : Prop where
  projects : db'.projects = db.projects
  tables : db'.tables.mapSymbols SymbolRow.bare = db.tables.mapSymbols SymbolRow.bare
  documentTexts : db'.documentTexts = db.documentTexts

theorem SameRows.refl (db : Database) : SameRows db db := ⟨rfl, rfl, rfl⟩

theorem SameRows.trans {db₁ db₂ db₃ : Database} (h : SameRows db₁ db₂) (h' : SameRows db₂ db₃) :
    SameRows db₁ db₃ :=
  ⟨h'.projects.trans h.projects, h'.tables.trans h.tables, h'.documentTexts.trans h.documentTexts⟩

theorem bare_mapSymbols (t : DocumentTables) {change : SymbolRow → SymbolRow}
    (hchange : ∀ s, (change s).bare = s.bare) :
    (t.mapSymbols change).mapSymbols SymbolRow.bare = t.mapSymbols SymbolRow.bare := by
  rw [DocumentTables.mapSymbols_mapSymbols]
  exact congrArg t.mapSymbols (funext hchange)

theorem sameRows_runStep {step : SchemaStep} (hkeeps : step.keepsRows = true)
    (h : db.runStep step = .ok db') : SameRows db db' ∧ db'.versions = db.versions := by
  cases step with
  | table name =>
      rw [runStep] at h
      split at h <;> obtain rfl := Except.ok.inj h <;> exact ⟨⟨rfl, rfl, rfl⟩, rfl⟩
  | index name table =>
      rw [runStep] at h
      obtain ⟨-, -, h⟩ := bind_eq_ok_iff.mp h
      dsimp only at h
      by_cases hname : db.schema.hasName name = true
      · rw [if_pos hname] at h
        cases h
      · rw [if_neg hname] at h
        split at h <;> obtain rfl := Except.ok.inj h <;> exact ⟨⟨rfl, rfl, rfl⟩, rfl⟩
  | trigger name table =>
      rw [runStep] at h
      split at h
      · cases h
      · split at h <;> obtain rfl := Except.ok.inj h <;> exact ⟨⟨rfl, rfl, rfl⟩, rfl⟩
  | findSymbols =>
      rw [runStep] at h
      obtain ⟨-, -, h⟩ := bind_eq_ok_iff.mp h
      obtain ⟨-, -, h⟩ := bind_eq_ok_iff.mp h
      obtain rfl := Except.ok.inj h
      exact ⟨⟨rfl, bare_mapSymbols db.tables fun s => rfl, rfl⟩, rfl⟩
  | dropTrigger name =>
      obtain rfl := Except.ok.inj h
      exact ⟨⟨rfl, rfl, rfl⟩, rfl⟩
  | dropTable name => cases hkeeps

theorem sameRows_runSteps (db : Database) {steps : List SchemaStep} (hkeeps : ∀ step ∈ steps, step.keepsRows = true) :
    SameRows db (db.runSteps steps).1 ∧ (db.runSteps steps).1.versions = db.versions := by
  induction steps generalizing db with
  | nil => exact ⟨.refl db, rfl⟩
  | cons step rest ih =>
      unfold runSteps
      cases hstep : db.runStep step with
      | error c => exact ⟨.refl db, rfl⟩
      | ok db' =>
          obtain ⟨hrows, hversions⟩ := sameRows_runStep (hkeeps step (by simp)) hstep
          obtain ⟨hrest, hversions'⟩  := ih db' fun k hk => hkeeps k (List.mem_cons_of_mem step hk)
          exact ⟨hrows.trans hrest, hversions'.trans hversions⟩

theorem addVersion_eq_ok {version : Option String} (h : db.addVersion version = .ok db') :
    db.schema.require "schema_version" = .ok () ∧
      db' = { db with versions := db.versions ++ [version] } := by
  unfold addVersion at h
  obtain ⟨⟨⟩, hhas, h⟩ := bind_eq_ok_iff.mp h
  split at h
  · cases h
  · exact ⟨hhas, (Except.ok.inj h).symm⟩

/-! ## What migrations that succeed leave -/

/-- What migrations have done that were run: each is noted, and nothing else has changed in the rows. -/
structure Migrated (db : Database) (migrations : List Migration) (db' : Database) : Prop where
  rows : SameRows db db'
  versions : db'.versions = db.versions ++ migrations.map (some ·.version.toString)
  has : migrations ≠ [] → db'.schema.require "schema_version" = .ok ()

theorem migrated_migrateUp {m : Migration} (hkeeps : ∀ step ∈ m.up, step.keepsRows = true)
    (h : db.migrateUp m = (db', .ok ())) : Migrated db [m] db' := by
  obtain ⟨hrows, hversions⟩ := sameRows_runSteps db hkeeps
  unfold migrateUp at h
  dsimp only at h
  split at h
  · cases h
  · rename_i mid hsteps
    rw [hsteps] at hrows hversions
    dsimp only at hrows hversions
    split at h
    · cases h
    · rename_i noted hadd
      obtain ⟨rfl, -⟩ := Prod.mk.inj h
      obtain ⟨hhas, rfl⟩ := addVersion_eq_ok hadd
      exact ⟨hrows.trans ⟨rfl, rfl, rfl⟩, by simp [hversions], fun _ => hhas⟩

theorem migrated_migrateAll {migrations : List Migration}
    (hkeeps : ∀ m ∈ migrations, ∀ step ∈ m.up, step.keepsRows = true)
    (h : db.migrateAll migrations = (db', .ok ())) : Migrated db migrations db' := by
  induction migrations generalizing db with
  | nil =>
      obtain ⟨rfl, -⟩ := Prod.mk.inj h
      exact ⟨.refl _, by simp, fun hne => absurd rfl hne⟩
  | cons m rest ih =>
      unfold migrateAll at h
      split at h
      · rename_i mid hup
        have hfirst := migrated_migrateUp (hkeeps m (by simp)) hup
        have hrest := ih (fun k hk => hkeeps k (List.mem_cons_of_mem m hk)) h
        refine ⟨hfirst.rows.trans hrest.rows, ?_, fun _ => ?_⟩
        · rw [hrest.versions, hfirst.versions, List.append_assoc, ← List.map_append, List.singleton_append]
        · cases rest with
          | nil =>
              obtain ⟨rfl, -⟩ := Prod.mk.inj h
              exact hfirst.has (List.cons_ne_nil m [])
          | cons k others => exact hrest.has (List.cons_ne_nil k others)
      · rename_i hfailed
        exact absurd h (hfailed db')

/-- Where the rows of a layout without notes are none, migrations that succeed are those that are higher
than every noted version, and they leave none to be run. -/
theorem migrated_applyMigrations (hrows : db.VersionsHaveTable) (h : db.applyMigrations = (db', .ok ())) :
    db.migrateAll db.pending = (db', .ok ()) ∧ Migrated db db.pending db' ∧
      db'.applyMigrations = (db', .ok ()) := by
  have hcurrent : ∃ current, db.currentVersion = .ok current := by
    unfold applyMigrations at h
    split at h
    · cases h
    · exact ⟨_, ‹_›⟩
  obtain ⟨current, hcurrent⟩ := hcurrent
  have happly := applyMigrations_eq hrows hcurrent
  rw [happly] at h
  have hkeeps : ∀ m ∈ Migration.all, ∀ step ∈ m.up, step.keepsRows = true := by decide
  have hdone := migrated_migrateAll (fun m hm => hkeeps m (List.mem_of_mem_filter hm)) h
  refine ⟨h, hdone, ?_⟩
  -- Only a migration that has been run makes sure that there is a table to read versions from.
  by_cases hnone : db.pending = []
  · rw [hnone] at h
    obtain ⟨rfl, -⟩ := Prod.mk.inj h
    rw [happly, hnone]
    rfl
  · have hhas := hdone.has hnone
    have hthere : db'.VersionsHaveTable := fun hall => absurd rfl (hall _ (has_of_require hhas))
    have hread : ∀ row ∈ db'.versions, ∃ v, readVersion row = .ok v := by
      intro row hrow
      rw [hdone.versions, List.mem_append] at hrow
      rcases hrow with hrow | hrow
      · obtain ⟨versions, hnotes, -⟩ := exists_notes_of_currentVersion hrows hcurrent
        obtain ⟨v, -, hv⟩ := hnotes.read row hrow
        exact ⟨v, hv⟩
      · obtain ⟨m, hm, rfl⟩ := List.mem_map.mp hrow
        exact ⟨_, readVersion_toString (List.mem_of_mem_filter hm)⟩
    obtain ⟨versions, -, hcurrent'⟩ := exists_notes_of_readable hhas hread
    have hlast : db'.pending = [] := by
      refine pending_eq_nil ⟨_, ?_, readVersion_second⟩
      rw [hdone.versions, ← toString_second]
      exact List.mem_append_right _ (List.mem_map_of_mem (second_mem_pending hnone))
    rw [applyMigrations_eq hthere hcurrent', hlast]
    rfl

end Database

end CodeAtlas
