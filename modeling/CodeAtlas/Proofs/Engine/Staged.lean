import CodeAtlas.Proofs.Engine.Take

/-!
# What a run stages

While a run takes up its candidates, the index keeps what it kept, and the changes are queued. What
the index will keep is told by the queue; the run stages an entry for each document of its project that
will be kept, except for those of files that have not been taken up, and these become stale. So in the
end the entries and the documents of the project are the same.
-/

namespace CodeAtlas

def FileEntry.document (f : FileEntry) : Document := ⟨f.file.listed, "", f.symbols, f.references⟩

theorem FileEntry.id_of_document_eq {f : FileEntry} {d : Document} (h : f.document = d.listed) :
    f.file.id = d.file.id :=
  congrArg (fun d : Document => d.file.id) h

theorem FileEntry.projectId_of_document_eq {f : FileEntry} {d : Document}
    (h : f.document = d.listed) : f.file.projectId = d.file.projectId :=
  congrArg (fun d : Document => d.file.projectId) h

theorem FileEntry.checksum_of_document_eq {f : FileEntry} {d : Document}
    (h : f.document = d.listed) : f.file.checksum = d.file.checksum :=
  congrArg (fun d : Document => d.file.checksum) h

namespace Setting

/-- The document is that of a candidate below the root. -/
def Explains (S : Setting) (root : String) (d : Document) : Prop :=
  ∃ c, S.Meets d.file.projectId root c ∧ S.document? d.file.projectId c = some d.timeless

variable {S : Setting} {projectId root : String} {c : Candidate} {d : Document}

theorem document?_eq_some (h : S.document? projectId c = some d.timeless) :
    ∃ result, S.parse (c.request projectId) = .ok result ∧
      d.symbols = result.found.symbols ∧ d.references = result.found.references := by
  unfold document? at h
  split at h
  · rename_i result hparse
    have hd := (Option.some.inj h).symm
    exact ⟨result, hparse, congrArg Document.symbols hd, congrArg Document.references hd⟩
  · simp at h

theorem file_of_document? (h : S.document? projectId c = some d.timeless) :
    d.file.id = fileId projectId c.relativePath ∧ d.file.checksum = checksum c.content := by
  unfold document? at h
  split at h
  · have hfile := congrArg Document.file (Option.some.inj h).symm
    have hid := congrArg IndexedFile.id hfile
    have hsum := congrArg IndexedFile.checksum hfile
    simp only [Document.timeless, Candidate.file] at hid hsum
    exact ⟨hid, hsum⟩
  · simp at h

theorem Explains.id_eq (h : S.Explains root d) :
    ∃ path, (d.file.projectId, path) ∈ S.names ∧ d.file.id = fileId d.file.projectId path := by
  obtain ⟨c, hmeets, hdocument⟩ := h
  exact ⟨c.relativePath, hmeets.name, (file_of_document? hdocument).1⟩

theorem Explains.listed_found (h : S.Explains root d) :
    d.listed.symbols = d.symbols ∧ d.listed.references = d.references := by
  obtain ⟨c, hmeets, hdocument⟩ := h
  obtain ⟨result, hparse, hsymbols, hreferences⟩ := document?_eq_some hdocument
  have hid := (file_of_document? hdocument).1
  obtain ⟨hs, hr⟩ := found_listed hparse
  unfold Document.listed
  simp only [hid, hsymbols, hreferences]
  exact ⟨hs, hr⟩

/-- A document with the file and the checksum of a candidate is the candidate's. -/
theorem Explains.document?_eq (h : S.Explains root d) (hproject : d.file.projectId = projectId)
    (hmeets : S.Meets projectId root c) (hid : d.file.id = fileId projectId c.relativePath)
    (hsum : d.file.checksum = checksum c.content) :
    S.document? projectId c = some d.timeless := by
  subst hproject
  obtain ⟨c', hmeets', hdocument⟩ := h
  obtain ⟨hid', hsum'⟩ := file_of_document? hdocument
  rw [← hdocument]
  exact hmeets.document?_eq hmeets' (hid.symm.trans hid') (hsum.symm.trans hsum')

end Setting

namespace Run

def idOf (r : Run) (c : Candidate) : String := fileId r.project.id c.relativePath

/-- What is kept when a run begins: the entries in memory are those of the project's documents. -/
structure Begins (S : Setting) (r : Run) (docs : List Document) : Prop where
  files : (docs.map (·.file.id)).Nodup
  named : ∀ d ∈ docs, ∃ path, (d.file.projectId, path) ∈ S.names ∧
    d.file.id = fileId d.file.projectId path
  explained : ∀ d ∈ docs, d.file.projectId = r.project.id → S.Explains r.project.rootPath d
  prior : ∀ f ∈ r.prior, ∃ d ∈ docs, d.file.projectId = r.project.id ∧ f.document = d.listed
  held : ∀ d ∈ docs, d.file.projectId = r.project.id → ∃ f ∈ r.prior, f.file.id = d.file.id

/-- What will be kept after the changes for the candidates that have been taken up. -/
structure Leaves (S : Setting) (r : Run) (docs : List Document) (done : List Candidate)
    (left : List Document) : Prop where
  others : left.filter (·.file.projectId != r.project.id) =
    docs.filter (·.file.projectId != r.project.id)
  files : (left.map (·.file.id)).Nodup
  explained : ∀ d ∈ left, d.file.projectId = r.project.id → S.Explains r.project.rootPath d
  waiting : r.isFresh = false → ∀ d ∈ docs, d.file.projectId = r.project.id →
    (∀ c ∈ done, d.file.id ≠ r.idOf c) → d ∈ left

/-- What has been staged for the candidates that have been taken up. -/
structure Staged (r : Run) (docs : List Document) (done : List Candidate) (left : List Document)
    (failed : Nat) (staged : List FileEntry) : Prop where
  kept : ∀ f ∈ staged, ∃ d ∈ left, d.file.projectId = r.project.id ∧ f.document = d.listed
  distinct : (staged.map (·.file.id)).Nodup
  taken : ∀ f ∈ staged, ∃ c ∈ done, f.file.id = r.idOf c ∧
    (failed = 0 → c.fits r.ignore = true ∧ f.file.checksum = checksum c.content)
  complete : failed = 0 → ∀ c ∈ done, c.fits r.ignore = true → ∃ f ∈ staged, f.file.id = r.idOf c
  known : ∀ d ∈ left, d.file.projectId = r.project.id →
    (∃ f ∈ staged, f.file.id = d.file.id) ∨ r.isFresh = false ∧ d ∈ docs

variable {S : Setting} {r : Run} {docs left : List Document} {done : List Candidate}
  {c : Candidate} {failed failed' : Nat} {staged : List FileEntry}

theorem idOf_ne {c' : Candidate} (hmeets : S.Meets r.project.id r.project.rootPath c)
    (hmeets' : S.Meets r.project.id r.project.rootPath c')
    (hne : c'.relativePath ≠ c.relativePath) : r.idOf c' ≠ r.idOf c := by
  intro hid
  exact hne (congrArg Prod.snd (S.fileId_injOn hmeets'.name hmeets.name hid))

theorem Leaves.id_ne (h : Leaves S r docs done left) (hbegins : Begins S r docs)
    (hmeets : S.Meets r.project.id r.project.rootPath c) {d : Document} (hd : d ∈ left)
    (hother : d.file.projectId ≠ r.project.id) : d.file.id ≠ r.idOf c := by
  intro hid
  have hkept : d ∈ left.filter (·.file.projectId != r.project.id) :=
    List.mem_filter.mpr ⟨hd, by simpa using hother⟩
  rw [h.others] at hkept
  obtain ⟨path, hname, hid'⟩ := hbegins.named d (List.mem_of_mem_filter hkept)
  have hnames := S.fileId_injOn hname hmeets.name (hid'.symm.trans hid)
  exact hother (congrArg Prod.fst hnames)

theorem Leaves.skip (h : Leaves S r docs done left) (c : Candidate) :
    Leaves S r docs (done ++ [c]) left :=
  ⟨h.others, h.files, h.explained, fun hfresh d hd hproject hwaits =>
    h.waiting hfresh d hd hproject fun c' hc' => hwaits c' (List.mem_append_left _ hc')⟩

/-- A put document takes the place of the one that its file had. -/
theorem Leaves.put (h : Leaves S r docs done left) (hbegins : Begins S r docs)
    (hmeets : S.Meets r.project.id r.project.rootPath c) {d : Document}
    (hid : d.file.id = r.idOf c) (hproject : d.file.projectId = r.project.id)
    (hexplained : S.Explains r.project.rootPath d) :
    Leaves S r docs (done ++ [c]) (left.filter (·.file.id != r.idOf c) ++ [d]) where
  others := by
    have hself : [d].filter (·.file.projectId != r.project.id) = [] := by simp [hproject]
    rw [List.filter_append, hself, List.append_nil, ← h.others, List.filter_filter]
    refine List.filter_congr fun e he => ?_
    by_cases hother : e.file.projectId = r.project.id
    · simp [hother]
    · simp [h.id_ne hbegins hmeets he hother]
  files := by
    rw [List.map_append, List.nodup_append]
    refine ⟨h.files.sublist (List.filter_sublist.map _), by simp, ?_⟩
    rintro id hmem other hother rfl
    obtain ⟨e, he, rfl⟩ := List.mem_map.mp hmem
    have hne := (List.mem_filter.mp he).2
    simp only [List.map_cons, List.map_nil, List.mem_singleton] at hother
    simp [hother, hid] at hne
  explained := by
    intro e he hown
    rcases List.mem_append.mp he with he | he
    · exact h.explained e (List.mem_of_mem_filter he) hown
    · rw [List.mem_singleton.mp he]
      exact hexplained
  waiting := by
    intro hfresh e he hown hwaits
    refine List.mem_append_left _ (List.mem_filter.mpr ⟨?_, ?_⟩)
    · exact h.waiting hfresh e he hown fun c' hc' => hwaits c' (List.mem_append_left _ hc')
    · simpa using hwaits c (by simp)

theorem Staged.skip (h : Staged r docs done left failed staged)
    (hskips : failed' = 0 → failed = 0 ∧ c.fits r.ignore = false) :
    Staged r docs (done ++ [c]) left failed' staged where
  kept := h.kept
  distinct := h.distinct
  taken := by
    intro f hf
    obtain ⟨c', hc', hid, hsame⟩ := h.taken f hf
    exact ⟨c', List.mem_append_left _ hc', hid, fun hnone => hsame (hskips hnone).1⟩
  complete := by
    intro hnone c' hc' hfits
    rcases List.mem_append.mp hc' with hc' | hc'
    · exact h.complete (hskips hnone).1 c' hc' hfits
    · rw [List.mem_singleton.mp hc', (hskips hnone).2] at hfits
      simp at hfits
  known := h.known

/-- An entry is staged for a candidate, whose document alone may have been put. -/
theorem Staged.add (h : Staged r docs done left failed staged)
    (hdistinct : ∀ c' ∈ done, r.idOf c' ≠ r.idOf c) {f : FileEntry} (hid : f.file.id = r.idOf c)
    {left' : List Document} (hstay : ∀ d ∈ left, d.file.id ≠ r.idOf c → d ∈ left')
    (hcome : ∀ d ∈ left', d ∈ left ∨ d.file.id = r.idOf c)
    (hkept : ∃ d ∈ left', d.file.projectId = r.project.id ∧ f.document = d.listed)
    (hsame : failed' = 0 → failed = 0 ∧ c.fits r.ignore = true ∧ f.file.checksum = checksum c.content) :
    Staged r docs (done ++ [c]) left' failed' (staged ++ [f]) where
  kept := by
    intro g hg
    rcases List.mem_append.mp hg with hg | hg
    · obtain ⟨d, hd, hown, hdocument⟩ := h.kept g hg
      obtain ⟨c', hc', hgid, -⟩ := h.taken g hg
      refine ⟨d, hstay d hd ?_, hown, hdocument⟩
      rw [← FileEntry.id_of_document_eq hdocument, hgid]
      exact hdistinct c' hc'
    · rw [List.mem_singleton.mp hg]
      exact hkept
  distinct := by
    rw [List.map_append, List.nodup_append]
    refine ⟨h.distinct, by simp, ?_⟩
    rintro id hmem other hother rfl
    obtain ⟨g, hg, rfl⟩ := List.mem_map.mp hmem
    obtain ⟨c', hc', hgid, -⟩ := h.taken g hg
    simp only [List.map_cons, List.map_nil, List.mem_singleton] at hother
    exact hdistinct c' hc' (hgid.symm.trans (hother.trans hid))
  taken := by
    intro g hg
    rcases List.mem_append.mp hg with hg | hg
    · obtain ⟨c', hc', hgid, hgsame⟩ := h.taken g hg
      exact ⟨c', List.mem_append_left _ hc', hgid, fun hnone => hgsame (hsame hnone).1⟩
    · rw [List.mem_singleton.mp hg]
      exact ⟨c, by simp, hid, fun hnone => (hsame hnone).2⟩
  complete := by
    intro hnone c' hc' hfits
    rcases List.mem_append.mp hc' with hc' | hc'
    · obtain ⟨g, hg, hgid⟩ := h.complete (hsame hnone).1 c' hc' hfits
      exact ⟨g, List.mem_append_left _ hg, hgid⟩
    · rw [List.mem_singleton.mp hc']
      exact ⟨f, by simp, hid⟩
  known := by
    intro d hd hown
    obtain hold | hnew := hcome d hd
    · obtain ⟨g, hg, hgid⟩ | hprior := h.known d hold hown
      · exact .inl ⟨g, List.mem_append_left _ hg, hgid⟩
      · exact .inr hprior
    · exact .inl ⟨f, by simp, hid.trans hnew.symm⟩

theorem Leaves.kept_of_prior? (h : Leaves S r docs done left) (hbegins : Begins S r docs)
    (hdistinct : ∀ c' ∈ done, r.idOf c' ≠ r.idOf c) (hfresh : r.isFresh = false) {f : FileEntry}
    (hprior : r.prior? (r.idOf c) = some f) : f.file.id = r.idOf c ∧
      ∃ d ∈ left, d.file.projectId = r.project.id ∧ f.document = d.listed := by
  have hid : f.file.id = r.idOf c := by simpa using List.find?_some hprior
  obtain ⟨d, hd, hown, hdocument⟩ := hbegins.prior f (List.mem_of_find?_eq_some hprior)
  refine ⟨hid, d, h.waiting hfresh d hd hown fun c' hc' => ?_, hown, hdocument⟩
  rw [← FileEntry.id_of_document_eq hdocument, hid]
  exact (hdistinct c' hc').symm

theorem prior?_of_known? {f : FileEntry} (h : r.known? c = some f) :
    r.prior? (r.idOf c) = some f ∧ r.isFresh = false ∧ f.file.checksum = checksum c.content := by
  obtain ⟨hprior, hsame⟩ := Option.filter_eq_some_iff.mp h
  simp only [Bool.and_eq_true, Bool.not_eq_true', beq_iff_eq] at hsame
  exact ⟨hprior, hsame.1, hsame.2⟩

/-- The queue makes of the documents that the index keeps those that it will keep, and saves no
project. -/
structure Queues (now : Instant) (docs : List Document) (start ix : Index)
    (left : List Document) : Prop where
  queue : ∃ ops, ix = { start with queue := some ops } ∧ ops.foldl (WriteOp.on now) docs = left ∧
    ∀ rows, ops.foldl WriteOp.onProjects rows = rows

theorem Queues.enqueue {now : Instant} {start ix : Index} (h : Queues now docs start ix left)
    {op : WriteOp} (hrows : ∀ rows, op.onProjects rows = rows) :
    Queues now docs start (ix.enqueue [op]) (op.on now left) := by
  obtain ⟨ops, rfl, rfl, hops⟩ := h.queue
  refine ⟨ops ++ [op], rfl, by simp, fun rows => ?_⟩
  rw [List.foldl_append, hops]
  exact hrows rows

/-- How far a run has come. -/
structure Reaches (S : Setting) (r : Run) (docs : List Document) (start : Index)
    (done : List Candidate) (s : RunState) (left : List Document) : Prop where
  parser : s.parser.Sound S
  queues : Queues r.started docs start s.index left
  leaves : Leaves S r docs done left
  staged : Staged r docs done left s.failed s.staged

theorem document?_of_parse {result : ParseResult}
    (h : S.parse (c.request r.project.id) = .ok result) :
    S.document? r.project.id c = some (r.documentOf c result.found).timeless := by
  unfold Setting.document?
  rw [h]
  rfl

theorem documentOf_id (r : Run) (c : Candidate) (found : FileSymbols) :
    (r.documentOf c found).file.id = r.idOf c := rfl

theorem documentOf_projectId (r : Run) (c : Candidate) (found : FileSymbols) :
    (r.documentOf c found).file.projectId = r.project.id := rfl

theorem stamped_documentOf (r : Run) (c : Candidate) (found : FileSymbols) :
    Database.stamped r.started (r.documentOf c found) = r.documentOf c found := by
  unfold Database.stamped documentOf fileOf
  split <;> rfl

/-- What is found in a candidate whose content has not changed is what is kept of it. -/
theorem entryOf_document {f : FileEntry} {d : Document} {result : ParseResult}
    (hexplained : S.Explains r.project.rootPath d) (hown : d.file.projectId = r.project.id)
    (hmeets : S.Meets r.project.id r.project.rootPath c) (hid : f.file.id = r.idOf c)
    (hsum : f.file.checksum = checksum c.content) (hdocument : f.document = d.listed)
    (hparse : S.parse (c.request r.project.id) = .ok result) :
    (entryOf f.file result.found).document = d.listed := by
  have hsame := hexplained.document?_eq hown hmeets
    ((FileEntry.id_of_document_eq hdocument).symm.trans hid)
    ((FileEntry.checksum_of_document_eq hdocument).symm.trans hsum)
  obtain ⟨result', hparse', hsymbols, hreferences⟩ := Setting.document?_eq_some hsame
  obtain rfl := Except.ok.inj (hparse.symm.trans hparse')
  obtain ⟨hlistedSymbols, hlistedReferences⟩ := hexplained.listed_found
  have hfile : f.file.listed = d.listed.file := congrArg Document.file hdocument
  unfold FileEntry.document entryOf
  simp only
  rw [hfile, ← hsymbols, ← hreferences, ← hlistedSymbols, ← hlistedReferences]
  rfl

theorem documentOf_document {found : FileSymbols}
    (hexplained : S.Explains r.project.rootPath (r.documentOf c found)) :
    (entryOf (r.documentOf c found).file found).document = (r.documentOf c found).listed := by
  obtain ⟨hlistedSymbols, hlistedReferences⟩ := hexplained.listed_found
  have hsymbols : (r.documentOf c found).symbols = found.symbols := rfl
  have hreferences : (r.documentOf c found).references = found.references := rfl
  unfold FileEntry.document entryOf
  simp only
  rw [← hsymbols, ← hreferences, ← hlistedSymbols, ← hlistedReferences]
  rfl

/-- A candidate that fails leaves what was known of it, unless the run is a fresh one. -/
theorem Reaches.fail {start : Index} {s : RunState} (h : Reaches S r docs start done s left)
    (hbegins : Begins S r docs) (hdistinct : ∀ c' ∈ done, r.idOf c' ≠ r.idOf c) (message : String) :
    Reaches S r docs start (done ++ [c]) (r.fail s (r.idOf c) c message) left := by
  refine ⟨h.parser, h.queues, h.leaves.skip c, ?_⟩
  unfold Run.fail
  simp only
  split
  · exact h.staged.skip fun hnone => absurd hnone (Nat.succ_ne_zero _)
  · rename_i hfresh
    cases hprior : r.prior? (r.idOf c) with
    | none =>
        rw [Option.toList_none, List.append_nil]
        exact h.staged.skip fun hnone => absurd hnone (Nat.succ_ne_zero _)
    | some f =>
        obtain ⟨hid, hkept⟩ :=
          h.leaves.kept_of_prior? hbegins hdistinct (by simpa using hfresh) hprior
        exact h.staged.add hdistinct hid (fun _ hd _ => hd) (fun _ hd => .inl hd) hkept
          fun hnone => absurd hnone (Nat.succ_ne_zero _)

theorem Reaches.take {start : Index} {s s' : RunState} {live : Bool}
    (h : Reaches S r docs start done s left) (hbegins : Begins S r docs)
    (hmeets : S.Meets r.project.id r.project.rootPath c)
    (hdistinct : ∀ c' ∈ done, r.idOf c' ≠ r.idOf c)
    (hsteady : Parser.parseFresh S.config S.tool live (c.request r.project.id) =
      S.parse (c.request r.project.id))
    (htakes : r.Takes live s c s') : ∃ left', Reaches S r docs start (done ++ [c]) s' left' := by
  have hparsed {outcome : Except TooLarge (ParseResult × Bool)} {parser : Parser}
      (hparse : s.parser.parse live (c.request r.project.id) = (outcome, parser)) :
      outcome.map Prod.fst = S.parse (c.request r.project.id) ∧ parser.Sound S := by
    have hsound := h.parser.parse hmeets.asks hsteady
    rwa [hparse] at hsound
  cases htakes with
  | @refused message _ => exact ⟨left, h.fail hbegins hdistinct message⟩
  | skipped hfits =>
      exact ⟨left, h.parser, h.queues, h.leaves.skip c, h.staged.skip fun hnone => ⟨hnone, hfits⟩⟩
  | @kept f hfits hknown =>
      obtain ⟨hprior, hfresh, hsum⟩ := prior?_of_known? hknown
      obtain ⟨hid, hkept⟩ := h.leaves.kept_of_prior? hbegins hdistinct hfresh hprior
      exact ⟨left, h.parser, h.queues, h.leaves.skip c, h.staged.add hdistinct hid
        (fun _ hd _ => hd) (fun _ hd => .inl hd) hkept fun hnone => ⟨hnone, hfits, hsum⟩⟩
  | @failed parser e hfits hparse =>
      have hasked : Reaches S r docs start done { s with parser } left :=
        ⟨(hparsed hparse).2, h.queues, h.leaves, h.staged⟩
      exact ⟨left, hasked.fail hbegins hdistinct e.message⟩
  | @reread f result cached parser hfits hknown hparse =>
      obtain ⟨hprior, hfresh, hsum⟩ := prior?_of_known? hknown
      obtain ⟨hid, d, hd, hown, hdocument⟩ :=
        h.leaves.kept_of_prior? hbegins hdistinct hfresh hprior
      obtain ⟨hresult, hsound⟩ := hparsed hparse
      have hentry : (entryOf f.file result.found).document = d.listed :=
        entryOf_document (h.leaves.explained d hd hown) hown hmeets hid hsum hdocument hresult.symm
      have hentryId : (entryOf f.file result.found).file.id = r.idOf c := hid
      exact ⟨left, hsound, h.queues, h.leaves.skip c, h.staged.add hdistinct hentryId
        (fun _ hd _ => hd) (fun _ hd => .inl hd) ⟨d, hd, hown, hentry⟩
        fun hnone => ⟨hnone, hfits, hsum⟩⟩
  | @put result cached parser hfits hknown hparse =>
      obtain ⟨hresult, hsound⟩ := hparsed hparse
      have hexplained : S.Explains r.project.rootPath (r.documentOf c result.found) :=
        ⟨c, hmeets, document?_of_parse hresult.symm⟩
      have hentry : (entryOf (r.documentOf c result.found).file result.found).document =
          (r.documentOf c result.found).listed := documentOf_document hexplained
      have hid := documentOf_id r c result.found
      have hown := documentOf_projectId r c result.found
      have hleft : (WriteOp.put (r.documentOf c result.found)).on r.started left =
          left.filter (·.file.id != r.idOf c) ++ [r.documentOf c result.found] := by
        rw [WriteOp.on, stamped_documentOf, hid]
      refine ⟨_, hsound, h.queues.enqueue fun rows => rfl, ?_, ?_⟩
      · rw [hleft]
        exact h.leaves.put hbegins hmeets hid hown hexplained
      · rw [hleft]
        have hentryId : (entryOf (r.documentOf c result.found).file result.found).file.id =
          r.idOf c := hid
        refine h.staged.add hdistinct hentryId ?_ ?_ ⟨_, by simp, hown, hentry⟩
          fun hnone => ⟨hnone, hfits, rfl⟩
        · intro d hd hne
          exact List.mem_append_left _ (List.mem_filter.mpr ⟨hd, by simpa using hne⟩)
        · intro d hd
          rcases List.mem_append.mp hd with hd | hd
          · exact .inl (List.mem_of_mem_filter hd)
          · rw [List.mem_singleton.mp hd]
            exact .inr hid

end Run

end CodeAtlas
