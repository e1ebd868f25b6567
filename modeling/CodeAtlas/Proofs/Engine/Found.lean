import CodeAtlas.Proofs.Engine.Again

/-!
# What has been read

Usages are not kept in the index, so an engine holds them of files that it has read itself. Such an entry
is what is found in a content that comes up, and identifier and checksum tell which one. Each engine that
comes up holds it, since runs only stage what they have read or what was held before.
-/

namespace CodeAtlas

namespace Setting

variable {S : Setting} {projectId root : String} {c : Candidate}

/-- The entry is what is found in a file that comes up. -/
def Finds (S : Setting) (f : FileEntry) : Prop :=
  ∃ path content result, (f.file.projectId, path) ∈ S.names ∧ content ∈ S.contents ∧
    f.file.id = fileId f.file.projectId path ∧ f.file.checksum = checksum content ∧
    S.parse ⟨fileId f.file.projectId path, path, (decode content).bytes, detectLanguage path⟩ =
      .ok result ∧
    f = Run.entryOf f.file result.found

theorem Meets.request_eq (h : S.Meets projectId root c) : c.request projectId =
    ⟨fileId projectId c.relativePath, c.relativePath, (decode c.content).bytes,
      detectLanguage c.relativePath⟩ := by
  obtain ⟨-, -, -, hlanguage, -⟩ := h.asks
  exact congrArg (ParseRequest.mk _ _ _) hlanguage

theorem Finds.parse_eq {f : FileEntry} (h : S.Finds f) (hmeets : S.Meets projectId root c)
    (hown : f.file.projectId = projectId) (hid : f.file.id = fileId projectId c.relativePath)
    (hsum : f.file.checksum = checksum c.content) :
    ∃ result, S.parse (c.request projectId) = .ok result ∧ f = Run.entryOf f.file result.found := by
  obtain ⟨path, content, result, hname, hcontent, hfile, hchecksum, hparse, hfound⟩ := h
  rw [hown] at hname hfile hparse
  have hsame := S.fileId_injOn hname hmeets.name (hfile.symm.trans hid)
  obtain rfl : path = c.relativePath := congrArg Prod.snd hsame
  obtain rfl := S.checksum_injOn hcontent hmeets.content (hchecksum.symm.trans hsum)
  exact ⟨result, hmeets.request_eq ▸ hparse, hfound⟩

theorem finds_of_meets (hmeets : S.Meets projectId root c) {result : ParseResult}
    (hparse : S.parse (c.request projectId) = .ok result) {file : IndexedFile}
    (hown : file.projectId = projectId) (hid : file.id = fileId projectId c.relativePath)
    (hsum : file.checksum = checksum c.content) : S.Finds (Run.entryOf file result.found) := by
  obtain rfl := hown
  rw [hmeets.request_eq] at hparse
  exact ⟨c.relativePath, c.content, result, hmeets.name, hmeets.content, hid, hsum, hparse, rfl⟩

end Setting

theorem FileMemory.Holds.unique {m : FileMemory} {entries entries' : List FileEntry}
    (h : m.Holds entries) (h' : m.Holds entries') : entries' = entries := by
  have hvalues {entries : List FileEntry} (h : m.Holds entries) :
      m.files.values.map m.entry = entries := by
    rw [h.values_files, List.map_map]
    exact (List.map_congr_left fun f hf => h.entry_eq hf).trans (List.map_id _)
  exact (hvalues h').symm.trans (hvalues h)

namespace Run

variable {S : Setting} {r : Run} {c : Candidate} {o : Outcome} {candidates : List Candidate}

theorem Judges.finds (h : r.Judges S.parse c o)
    (hmeets : S.Meets r.project.id r.project.rootPath c)
    (hprior : ∀ f ∈ r.prior, f.file.projectId = r.project.id ∧ (f.usages.isSome = true → S.Finds f))
    {f : FileEntry} (hf : f ∈ o.entries r c) (hread : f.usages.isSome = true) : S.Finds f := by
  have hknown {g : FileEntry} (hknown : r.known? c = some g) :
      g ∈ r.prior ∧ g.file.id = r.idOf c ∧ g.file.checksum = checksum c.content := by
    obtain ⟨hfound, -, hsum⟩ := prior?_of_known? hknown
    exact ⟨List.mem_of_find?_eq_some hfound, id_of_prior? hfound, hsum⟩
  cases h with
  | skipped => simp [Outcome.entries] at hf
  | kept hopens hsame =>
      obtain rfl := List.mem_singleton.mp hf
      exact (hprior f (hknown hsame).1).2 hread
  | refused | failed => exact (hprior f (prior_of_failed hf).2).2 hread
  | reread hopens hsame hunread hanswer =>
      obtain rfl := List.mem_singleton.mp hf
      obtain ⟨hold, hid, hsum⟩ := hknown hsame
      exact S.finds_of_meets hmeets hanswer (hprior _ hold).1 hid hsum
  | indexed hopens hsame hanswer =>
      obtain rfl := List.mem_singleton.mp hf
      exact S.finds_of_meets hmeets hanswer rfl rfl rfl

theorem Tallies.finds {skipped : Nat} {s : RunState} (h : r.Tallies S.parse candidates skipped s)
    (hmeets : ∀ c ∈ candidates, S.Meets r.project.id r.project.rootPath c)
    (hprior : ∀ f ∈ r.prior, f.file.projectId = r.project.id ∧ (f.usages.isSome = true → S.Finds f))
    {f : FileEntry} (hf : f ∈ s.staged) (hread : f.usages.isSome = true) : S.Finds f := by
  rw [h.staged] at hf
  obtain ⟨c, hc, hf⟩ := List.mem_flatMap.mp hf
  exact (r.judges_outcomeOf S.parse c).finds (hmeets c hc) hprior hf hread

end Run

namespace Engine

variable {S : Setting} {e e' : Engine} {docs : List Document} {entries : List FileEntry}
  {tree : FileTree} {caller : Caller} {now : Instant} {isFresh : Bool} {projectId : String}

/-- What the engine has read is what is found in files. -/
def Understands (S : Setting) (e : Engine) : Prop :=
  ∀ entries, e.memory.Holds entries → ∀ f ∈ entries, f.usages.isSome = true → S.Finds f

theorem Understands.of_subset (h : e.Understands S) (hmemory : e.memory.Holds entries)
    {entries' : List FileEntry} (hmemory' : e'.memory.Holds entries')
    (hfound : ∀ f ∈ entries', f ∈ entries ∨ (f.usages.isSome = true → S.Finds f)) :
    e'.Understands S := by
  intro held hheld f hf hread
  rw [hmemory'.unique hheld] at hf
  exact (hfound f hf).elim (fun hold => h entries hmemory f hold hread) fun hnew => hnew hread

theorem understands_of_runs (h : e.Understands S) (hordered : e.Orderly S.naming docs entries)
    (hsound : e.parser.Sound S) (hcovers : S.Covers tree projectId) (hsteady : S.Steady caller)
    {result : Except Fault RunFigures}
    (hruns : e.Runs tree caller now isFresh projectId e' result) : e'.Understands S := by
  cases hruns with
  | refused => exact h
  | failed => exact h
  | completed hstarts hfilled hcommit =>
      obtain ⟨⟨docs', hordered'⟩, -⟩ := hordered.complete hstarts hcovers.naming hfilled hcommit
      have hmeets := (hstarts.meets hcovers).1
      obtain ⟨htallies, -⟩ := tallies_of_filled hfilled hsound hsteady hmeets
      obtain ⟨hprior, hknown⟩ := hordered.prior hstarts
      rw [refresh_eq]
      refine h.of_subset hordered.memory hordered'.memory fun f hf => ?_
      rcases List.mem_append.mp hf with hf | hf
      · exact .inl (List.mem_of_mem_filter hf)
      · refine .inr fun hread => htallies.finds hmeets (fun g hg => ⟨(hknown g hg).1, ?_⟩) hf hread
        exact h entries hordered.memory g (List.mem_of_mem_filter (hprior.mem_iff.mp hg))

theorem understands_of_removes (h : e.Understands S) (hordered : e.Orderly S.naming docs entries)
    {result : Except Fault Unit} (hremoves : e.Removes caller now projectId e' result) :
    e'.Understands S := by
  cases hremoves with
  | refused => exact h
  | stopped => exact h
  | completed =>
      rw [refresh_eq]
      exact h.of_subset hordered.memory (hordered.memory.drop projectId) fun f hf =>
        .inl (List.mem_of_mem_filter hf)

theorem understands_locked {α : Type} (h : e.Understands S)
    (hordered : e.Orderly S.naming docs entries) {call : Engine → Engine × Except Fault α}
    (hcall : ∀ {e₁ : Engine}, e₁.Understands S → e₁.Orderly S.naming docs entries →
      e₁.parser = e.parser → (call e₁).1.Understands S) :
    (e.locked projectId call).1.Understands S := by
  refine locked_preserves (P := fun e' _ => e'.Understands S) (fun _ => h) (fun locks => ?_)
    fun _ _ _ hheld => hheld
  have hlocked : ({ e with locks } : Engine).Understands S := h
  exact hcall hlocked (hordered.of_same rfl rfl rfl) rfl

theorem usages_setAll {m : FileMemory} {new : List FileEntry} (hnew : ∀ f ∈ new, f.usages = none) :
    (m.setAll new).usages = m.usages := by
  induction new generalizing m with
  | nil => rfl
  | cons f rest ih =>
      have hfirst : (m.set f).usages = m.usages := by
        simp [FileMemory.set, hnew f List.mem_cons_self]
      exact (ih fun g hg => hnew g (List.mem_cons_of_mem f hg)).trans hfirst

theorem usages_of_restore {ignore : IgnoreConfig} {parser : Parser} {index : Index} {minted : Nat}
    {live : Bool} (h : restore ignore parser index minted live = .ok e) :
    e.memory.usages.entries = [] := by
  obtain ⟨projects, -, h⟩ := bind_eq_ok_iff.mp h
  obtain ⟨memory, hmemory, h⟩ := bind_eq_ok_iff.mp h
  obtain rfl := Except.ok.inj h
  rw [inContext_eq_ok_iff] at hmemory
  unfold restoredMemory at hmemory
  rw [refresh_eq]
  change memory.usages.entries = []
  have hempty : FileMemory.empty.usages.entries = [] := rfl
  -- the induction is on the projects, from any memory in which nothing has been read
  clear * - hmemory hempty
  generalize FileMemory.empty = start at hmemory hempty
  induction projects generalizing start with
  | nil =>
      obtain rfl := Except.ok.inj hmemory
      exact hempty
  | cons p rest ih =>
      rw [List.foldlM_cons] at hmemory
      obtain ⟨next, hnext, hrest⟩ := bind_eq_ok_iff.mp hmemory
      obtain ⟨documents, -, hnext⟩ := bind_eq_ok_iff.mp hnext
      obtain rfl := Except.ok.inj hnext
      refine ih _ hrest ?_
      rw [usages_setAll]
      · exact hempty
      · intro f hf
        obtain ⟨d, -, rfl⟩ := List.mem_map.mp hf
        rfl

theorem unread_of_restore {ignore : IgnoreConfig} {parser : Parser} {index : Index} {minted : Nat}
    {live : Bool} (h : restore ignore parser index minted live = .ok e)
    (hmemory : e.memory.Holds entries) : ∀ f ∈ entries, f.usages = none := by
  have hnone := usages_of_restore h
  rw [hmemory.usages, List.filterMap_eq_nil_iff] at hnone
  exact fun f hf => by simpa using hnone f hf

/-- In every engine that comes up, what has been read is what is found in files. -/
theorem Arises.understands (h : Arises S.conditions e) : e.Understands S := by
  -- nothing has been read in an engine that is opened
  have hopened {ignore : IgnoreConfig} {parser : Parser} {index : Index} {minted : Nat} {live : Bool}
      {e : Engine} (hopened : restore ignore parser index minted live = .ok e) : e.Understands S :=
    fun entries hmemory f hf hread => by simp [unread_of_restore hopened hmemory f hf] at hread
  induction h with
  | opened hparser hrestored => exact hopened hrestored
  | addProject h tree live now name path description ih =>
      obtain ⟨docs, entries, hordered⟩ := h.orderly_of_setting
      obtain ⟨hordered', -⟩ := hordered.addProject tree live now name path description
      exact ih.of_subset hordered.memory hordered'.memory fun f hf => .inl hf
  | indexProject h htree hcaller now ih =>
      obtain ⟨docs, entries, hordered⟩ := h.orderly_of_setting
      exact understands_locked ih hordered fun hheld hlocked hparser =>
        understands_of_runs hheld hlocked (hparser ▸ h.sound) htree hcaller (runs_of_runHeld rfl)
  | reindexProject h htree hcaller now ih =>
      obtain ⟨docs, entries, hordered⟩ := h.orderly_of_setting
      exact understands_locked ih hordered fun hheld hlocked hparser =>
        understands_of_runs hheld hlocked (hparser ▸ h.sound) htree hcaller (runs_of_runHeld rfl)
  | removeProject h caller now projectId ih =>
      obtain ⟨docs, entries, hordered⟩ := h.orderly_of_setting
      exact understands_locked ih hordered fun hheld hlocked _ =>
        understands_of_removes hheld hlocked (removes_of_removeHeld rfl)
  | reopened h hparser hrestored => exact hopened hrestored

/-- An engine whose memory agrees with its index comes up. -/
theorem Reachable.arises (h : Reachable S e) : Arises S.conditions e := by
  induction h with
  | opened hopened => exact .opened rfl hopened
  | addProject h tree live now name path description ih =>
      exact ih.addProject tree live now name path description
  | indexProject h hcovers hsteady now ih => exact ih.indexProject hcovers hsteady now
  | reindexProject h hcovers hsteady now ih => exact ih.reindexProject hcovers hsteady now
  | removeProject h hdone ih => exact ih.removeProject _ _ _
  | reopened h hopened ih => exact ih.reopened rfl hopened

theorem Reachable.run (h : Reachable S e) (hcovers : S.Covers tree projectId)
    (hsteady : S.Steady caller) (now : Instant) (isFresh : Bool) :
    Reachable S (e.locked projectId fun e => e.runHeld tree caller now isFresh projectId).1 := by
  cases isFresh with
  | false => exact h.indexProject hcovers hsteady now
  | true => exact h.reindexProject hcovers hsteady now

end Engine

end CodeAtlas
