import CodeAtlas.Classify.Classifier
import CodeAtlas.Extract.Parser
import CodeAtlas.Proofs.Index.Listing
import Mathlib.Data.Set.Function

/-!
# Parsing as a function

A parser remembers its last result for each file and tells files by their identifiers and contents by
their checksums. As long as neither collides among what is asked, whatever it remembers is what it would
find again, so that its answers do not depend on what it was asked before.
-/

namespace CodeAtlas

/-- What parsing depends on, and the contents and the names of files that come up. -/
structure Setting where
  config : ParserConfig
  tool : Option TagTool
  contents : Set (List UInt8)
  names : Set (String × String)
  checksum_injOn : Set.InjOn checksum contents
  fileId_injOn : Set.InjOn (fun name : String × String => fileId name.1 name.2) names

namespace Setting

def parse (S : Setting) (q : ParseRequest) : Except TooLarge ParseResult :=
  Parser.parseFresh S.config S.tool true q

/-- The requests that come up: for files by their identifiers, in the language of their names. -/
def Asks (S : Setting) (q : ParseRequest) : Prop :=
  ∃ projectId, (projectId, q.path) ∈ S.names ∧ q.fileId = fileId projectId q.path ∧
    q.language = detectLanguage q.path ∧ q.content ∈ S.contents

theorem Asks.eq {S : Setting} {q q' : ParseRequest} (h : S.Asks q) (h' : S.Asks q')
    (hfile : q.fileId = q'.fileId) (hsum : checksum q.content = checksum q'.content) : q = q' := by
  obtain ⟨projectId, hname, hid, hlanguage, hcontent⟩ := h
  obtain ⟨projectId', hname', hid', hlanguage', hcontent'⟩ := h'
  have hids : fileId projectId q.path = fileId projectId' q'.path :=
    hid.symm.trans (hfile.trans hid')
  have hpath : q.path = q'.path := congrArg Prod.snd (S.fileId_injOn hname hname' hids)
  have hsame : q.content = q'.content := S.checksum_injOn hcontent hcontent' hsum
  have hlanguages : q.language = q'.language := by rw [hlanguage, hlanguage', hpath]
  cases q with
  | mk file path content language =>
      simp only at hfile hpath hsame hlanguages
      subst hfile hpath hsame hlanguages
      rfl

end Setting

namespace Recent

variable {κ ν : Type} [BEq κ]

theorem mem_of_peek? {cache : Recent κ ν} {key : κ} {value : ν} (h : cache.peek? key = some value) :
    ∃ entry ∈ cache.entries, (entry.1 == key) = true ∧ entry.2 = value := by
  unfold peek? at h
  obtain ⟨entry, hfind, rfl⟩ := Option.map_eq_some_iff.mp h
  have hkey := List.find?_some hfind
  exact ⟨entry, List.mem_of_find?_eq_some hfind, hkey, rfl⟩

theorem mem_of_mem_erase {cache : Recent κ ν} {key : κ} {entry : κ × ν}
    (h : entry ∈ (cache.erase key).entries) : entry ∈ cache.entries :=
  List.mem_of_mem_filter h

theorem mem_of_mem_touch {cache : Recent κ ν} {key : κ} {entry : κ × ν}
    (h : entry ∈ (cache.touch key).entries) : entry ∈ cache.entries := by
  unfold touch at h
  split at h
  · rename_i found hfind
    rcases List.mem_cons.mp h with rfl | h
    · exact List.mem_of_find?_eq_some hfind
    · exact mem_of_mem_erase h
  · exact h

theorem mem_of_mem_insert {cache : Recent κ ν} {key : κ} {value : ν} {entry : κ × ν}
    (h : entry ∈ (cache.insert key value).entries) : entry = (key, value) ∨ entry ∈ cache.entries := by
  rcases List.mem_cons.mp (List.mem_of_mem_take h) with rfl | h
  · exact .inl rfl
  · exact .inr (mem_of_mem_erase h)

end Recent

namespace Parser

/-- A parser whose memory is right: each result is the one for a request that came up. -/
structure Sound (S : Setting) (p : Parser) : Prop where
  config : p.config = S.config
  tool : p.tool = S.tool
  cache : ∀ entry ∈ p.cache.entries, ∃ q, S.Asks q ∧ q.fileId = entry.1 ∧
    checksum q.content = entry.2.checksum ∧ S.parse q = .ok entry.2.result

variable {S : Setting} {p : Parser}

theorem sound_new (S : Setting) : (Parser.new S.config S.tool).Sound S where
  config := rfl
  tool := rfl
  cache := by simp [Parser.new, Recent.empty]

theorem Sound.invalidate (h : p.Sound S) (fileId : String) : (p.invalidate fileId).Sound S :=
  ⟨h.config, h.tool, fun entry hentry => h.cache entry (Recent.mem_of_mem_erase hentry)⟩

theorem Sound.invalidateAll (h : p.Sound S) (ids : List String) :
    (ids.foldl (fun p id => p.invalidate id) p).Sound S := by
  induction ids generalizing p with
  | nil => exact h
  | cons id rest ih => exact ih (h.invalidate id)

/-- Whether or not it remembers, a sound parser answers what is found in the file, and stays sound. -/
theorem Sound.parse (h : p.Sound S) {live : Bool} {q : ParseRequest} (hasked : S.Asks q)
    (hsteady : parseFresh S.config S.tool live q = S.parse q) :
    (p.parse live q).1.map Prod.fst = S.parse q ∧ (p.parse live q).2.Sound S := by
  have htouched : Sound S { p with cache := p.cache.touch q.fileId } :=
    ⟨h.config, h.tool, fun entry hentry => h.cache entry (Recent.mem_of_mem_touch hentry)⟩
  unfold Parser.parse
  split
  · rename_i hlarge
    refine ⟨?_, h⟩
    rw [h.config] at hlarge ⊢
    unfold Setting.parse parseFresh
    rw [if_pos hlarge]
    rfl
  · simp only
    split
    · rename_i entry hknown
      obtain ⟨hpeek, hsum⟩ := Option.filter_eq_some_iff.mp hknown
      obtain ⟨⟨file, remembered⟩, hmem, hfile, rfl⟩ := Recent.mem_of_peek? hpeek
      obtain ⟨q', hasked', hfile', hsum', hresult⟩ := h.cache _ hmem
      have hkey : file = q.fileId := by simpa using hfile
      have hremembered : remembered.checksum = checksum q.content := by
        simp only [Bool.and_eq_true, beq_iff_eq] at hsum
        exact hsum.2
      obtain rfl := hasked.eq hasked' (hkey.symm.trans hfile'.symm)
        (hremembered.symm.trans hsum'.symm)
      refine ⟨?_, htouched⟩
      rw [hresult]
      rfl
    · have hfresh : parseFresh p.config p.tool live q = S.parse q := by
        rw [h.config, h.tool, hsteady]
      rw [hfresh]
      split
      · rename_i f hfailed
        rw [hfailed]
        exact ⟨rfl, htouched⟩
      · rename_i result hfound
        rw [hfound]
        refine ⟨rfl, h.config, h.tool, ?_⟩
        intro entry hentry
        simp only at hentry
        split at hentry
        · rcases Recent.mem_of_mem_insert hentry with rfl | hentry
          · exact ⟨q, hasked, rfl, rfl, hfound⟩
          · exact htouched.cache entry hentry
        · exact htouched.cache entry hentry

end Parser

def Symbol.allTags : List String :=
  ["private", "exported", "test", "handler", "repository", "service", "factory", "abstract"]

theorem Symbol.conventionTags_subset (s : Symbol) : s.conventionTags ⊆ allTags := by
  have hrole : (role? s.name).toList ⊆ allTags := by
    unfold role?
    split_ifs <;> decide
  unfold conventionTags
  split
  · exact List.nil_subset _
  · refine List.append_subset.mpr ⟨List.append_subset.mpr ⟨List.append_subset.mpr ⟨?_, ?_⟩, ?_⟩, ?_⟩
    · split_ifs <;> decide
    · split_ifs <;> decide
    · split_ifs
      · exact List.append_subset.mpr ⟨hrole, by decide⟩
      · exact List.append_subset.mpr ⟨hrole, by decide⟩
      · exact List.nil_subset _
    · split_ifs <;> decide

theorem Symbol.storedTags_conventionTags (s : Symbol) :
    SymbolRow.storedTags s.conventionTags = s.conventionTags := by
  have hknown : ∀ tag ∈ allTags, ',' ∉ tag.toList ∧ tag ≠ "" := by decide
  refine SymbolRow.storedTags_eq (fun tag htag => (hknown tag (s.conventionTags_subset htag)).1) ?_
  intro hlone
  have hempty : "" ∈ s.conventionTags := by simp [hlone]
  exact (hknown "" (s.conventionTags_subset hempty)).2 rfl

namespace Extraction

variable (e : Extraction) (fileId : String)

theorem symbols_finish_listed :
    (e.finish fileId).symbols.map (Symbol.listed fileId) = (e.finish fileId).symbols := by
  unfold finish
  simp only [List.map_map]
  refine List.map_congr_left fun s _ => ?_
  simp only [Function.comp, Symbol.listed, Symbol.stored, finishSymbol,
    Symbol.storedTags_conventionTags]

theorem references_finish_listed :
    (e.finish fileId).references.map (Reference.listed fileId) = (e.finish fileId).references := by
  have hlisted : ∀ r ∈ (e.finish fileId).references, Reference.listed fileId r = id r := by
    intro r hr
    obtain ⟨u, -, hu⟩ := List.mem_filterMap.mp hr
    unfold resolveUsage? at hu
    obtain ⟨target, -, rfl⟩ := Option.map_eq_some_iff.mp hu
    rfl
  rw [List.map_congr_left hlisted, List.map_id]

end Extraction

theorem Setting.found_listed {S : Setting} {q : ParseRequest} {result : ParseResult}
    (h : S.parse q = .ok result) :
    result.found.symbols.map (Symbol.listed q.fileId) = result.found.symbols ∧
      result.found.references.map (Reference.listed q.fileId) = result.found.references := by
  unfold Setting.parse Parser.parseFresh at h
  simp only at h
  split at h
  · simp at h
  · obtain rfl := Except.ok.inj h
    exact ⟨Extraction.symbols_finish_listed _ _, Extraction.references_finish_listed _ _⟩

end CodeAtlas
