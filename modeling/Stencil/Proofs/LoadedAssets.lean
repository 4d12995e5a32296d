import Mathlib
import Stencil.Proofs.LocatedFiles
import Stencil.Source.Assets

/-!
# Loading assets and finding them again

Loading stores the files among the paths that a search lists, each under its path below the root
with a slash in front, or under its whole path if it does not lie below the root. Keys that are
looked up are first brought into one form, as are the keys of pairs that are written; the keys of a
loading are not. Nothing is assumed of the search.

> `get?_loaded`: under the key of a loaded file stands the text of this file and of no other, unless
> one of the two lies below the root and the other does not.
> `normalize_key_eq_iff`: the key has the form in which keys are looked up unless there is a
> backslash in it; then no lookup reaches it.
> `loaded_found_again`: files without a backslash in their keys are found under them, and writing the
> pairs that are embedded for the same pattern leaves the same store.
-/

namespace Stencil

namespace AssetStore

open FilePath (components LiesBelow assetKey joinSlashes)

/-! ## The form of keys -/

theorem backslash_notMem_forwardSlashes (cs : List Char) : '\\' ∉ forwardSlashes cs := by
  unfold forwardSlashes
  rw [List.mem_map]
  rintro ⟨c, -, hc⟩
  split at hc
  next => cases hc
  next hne => exact hne hc

theorem forwardSlashes_eq_self_iff {cs : List Char} : forwardSlashes cs = cs ↔ '\\' ∉ cs := by
  constructor
  · intro h
    rw [← h]
    exact backslash_notMem_forwardSlashes cs
  · intro h
    have hstays : ∀ c ∈ cs, (if c = '\\' then '/' else c) = c := by
      intro c hc
      have hne : c ≠ '\\' := by
        rintro rfl
        exact h hc
      rw [if_neg hne]
    unfold forwardSlashes
    rw [List.map_congr_left hstays, List.map_id']

/-- A key with a slash in front has the form of the store if there is no backslash in it. -/
theorem normalize_eq_iff (cs : List Char) :
    normalize (String.ofList ('/' :: cs)) = String.ofList ('/' :: cs) ↔ '\\' ∉ cs := by
  have hnormal : normalize (String.ofList ('/' :: cs)) =
      String.ofList ('/' :: forwardSlashes cs) := by
    unfold normalize
    rw [String.toList_ofList]
    rfl
  rw [hnormal, String.ofList_inj, List.cons.injEq, forwardSlashes_eq_self_iff]
  simp

/-- No key of the store's form has a backslash in it. -/
theorem backslash_notMem_normalize (key : String) : '\\' ∉ (normalize key).toList := by
  have hforward := backslash_notMem_forwardSlashes key.toList
  unfold normalize
  split
  next rest heq =>
    rw [heq] at hforward
    rwa [String.toList_ofList]
  next =>
    rw [String.toList_ofList, List.mem_cons]
    rintro (h | h)
    · cases h
    · exact hforward h

/-! ## What a loading stores -/

/-- A file that a loading stores. -/
structure LoadedFile where
  path : List Char
  text : String

/-- The key of a file that is loaded for a root. -/
def LoadedFile.key (root : String) (f : LoadedFile) : String := assetKey root.toList f.path

/-- The file at a path that was listed, if there is one and it is a text. -/
def fileAt? (disk : Disk) : Except String (List Char) → Option LoadedFile
  | .error _ => none
  | .ok path =>
    match disk.locate path with
    | .found (.file bytes) => (String.fromUTF8? bytes).map fun text => ⟨path, text⟩
    | .found (.directory _) | .missing | .blocked _ => none

/-- The files that a loading stores, in order. -/
def loadedFiles (search : PathSearch) (disk : Disk) (root pattern : String) : List LoadedFile :=
  match search disk (FilePath.append root.toList pattern.toList) with
  | .error _ => []
  | .ok listed => listed.filterMap (fileAt? disk)

/-- Files as pairs of their keys and texts. -/
def pairsOf (root : String) (files : List LoadedFile) : List (String × String) :=
  files.map fun f => (f.key root, f.text)

/-- Writes files under their keys. -/
def writeFiles (root : String) (store : AssetStore) (files : List LoadedFile) : AssetStore :=
  (pairsOf root files).foldl (fun s w => s.insert w.1 w.2) store

variable {search : PathSearch} {disk : Disk} {root pattern : String}

/-- A file that is loaded stands on the disk. -/
theorem read_of_fileAt {entry : Except String (List Char)} {f : LoadedFile}
    (h : fileAt? disk entry = some f) : disk.read f.path = .ok (some f.text) := by
  unfold fileAt? at h
  split at h
  next => cases h
  next path =>
    split at h
    next bytes hfound =>
      obtain ⟨text, htext, rfl⟩ := Option.map_eq_some_iff.1 h
      unfold Disk.read
      simp only [hfound, htext]
    next => cases h
    next => cases h
    next => cases h

/-- A run over paths that does not fail writes the files among them, and these are the ones that are
embedded. -/
theorem storeFiles_ok {listed : List (Except String (List Char))} {store store' : AssetStore}
    {count n : Nat} (h : storeFiles disk root pattern store count listed = (.ok n, store')) :
    n = count + (listed.filterMap (fileAt? disk)).length ∧
      store' = writeFiles root store (listed.filterMap (fileAt? disk)) ∧
      embedFiles disk root listed = some (pairsOf root (listed.filterMap (fileAt? disk))) := by
  fun_induction storeFiles disk root pattern store count listed with
  | case1 store count =>
    cases h
    exact ⟨rfl, rfl, rfl⟩
  | case2 | case4 => cases h
  | case3 store count path rest bytes hfound text htext ih =>
    have hfile : fileAt? disk (.ok path) = some ⟨path, text⟩ := by
      simp only [fileAt?, hfound, htext, Option.map_some]
    obtain ⟨hcount, hstore, hembedded⟩ := ih h
    rw [List.filterMap_cons_some hfile]
    refine ⟨?_, hstore, ?_⟩
    · rw [hcount, List.length_cons]
      omega
    · simp only [embedFiles, hfound, htext, hembedded]
      rfl
  | case5 store count path rest entries hfound ih
  | case6 store count path rest hfound ih
  | case7 store count path rest cause hfound ih =>
    have hfile : fileAt? disk (.ok path) = none := by simp only [fileAt?, hfound]
    rw [List.filterMap_cons_none hfile]
    simpa only [embedFiles, hfound] using ih h

/-- A loading that does not fail writes the files among the paths listed. -/
theorem load_ok {store store' : AssetStore} {n : Nat}
    (h : store.load search disk root pattern = (.ok n, store')) :
    n = (loadedFiles search disk root pattern).length ∧
      store' = writeFiles root store (loadedFiles search disk root pattern) ∧
      embedded search disk root pattern =
        some (pairsOf root (loadedFiles search disk root pattern)) := by
  unfold load at h
  unfold loadedFiles embedded
  split at h
  next => cases h
  next listed hlisted =>
    have hfiles := storeFiles_ok h
    rw [Nat.zero_add] at hfiles
    simpa only [hlisted] using hfiles

theorem read_loaded {f : LoadedFile} (hf : f ∈ loadedFiles search disk root pattern) :
    disk.read f.path = .ok (some f.text) := by
  unfold loadedFiles at hf
  split at hf
  next => cases hf
  next =>
    obtain ⟨entry, -, hfile⟩ := List.mem_filterMap.1 hf
    exact read_of_fileAt hfile

/-- Two loaded files with one key are one file, if both lie below the root or neither does. -/
theorem same_of_key {f g : LoadedFile} (hf : f ∈ loadedFiles search disk root pattern)
    (hg : g ∈ loadedFiles search disk root pattern)
    (hbelow : LiesBelow root.toList f.path ↔ LiesBelow root.toList g.path)
    (hkey : f.key root = g.key root) :
    components f.path = components g.path ∧ f.text = g.text := by
  have hpath := FilePath.components_eq_of_assetKey hbelow hkey
  exact ⟨hpath, Disk.read_unique (read_loaded hf) (read_loaded hg) hpath⟩

/-- Under the key of a loaded file stands the text of the file. -/
theorem get?_loaded {f : LoadedFile} (hf : f ∈ loadedFiles search disk root pattern)
    (hbelow : ∀ g ∈ loadedFiles search disk root pattern, g.key root = f.key root →
      (LiesBelow root.toList g.path ↔ LiesBelow root.toList f.path)) (store : AssetStore) :
    Table.get? (writeFiles root store (loadedFiles search disk root pattern)) (f.key root) =
      some f.text := by
  have hwrite : (f.key root, f.text) ∈ pairsOf root (loadedFiles search disk root pattern) :=
    List.mem_map.2 ⟨f, hf, rfl⟩
  refine Table.get?_foldl_insert hwrite ?_ store
  intro other hother
  obtain ⟨g, hg, heq⟩ := List.mem_map.1 hother
  obtain ⟨hkey, rfl⟩ := Prod.mk.inj heq
  exact (same_of_key hg hf (hbelow g hg hkey) hkey).2

/-- The key of a file has the form of the store unless there is a backslash in it. -/
theorem normalize_key_eq_iff (root : String) (f : LoadedFile) :
    normalize (f.key root) = f.key root ↔ '\\' ∉ (f.key root).toList := by
  unfold LoadedFile.key assetKey
  rw [normalize_eq_iff, String.toList_ofList]
  simp

theorem key_ne_empty (root : String) (f : LoadedFile) : f.key root ≠ "" := by
  intro h
  have := congrArg String.toList h
  rw [LoadedFile.key, assetKey, String.toList_ofList] at this
  cases this

/-- Keys that have the form of the store already are written as they are. -/
theorem putAll_files {root : String} {files : List LoadedFile}
    (h : ∀ f ∈ files, '\\' ∉ (f.key root).toList) (store : AssetStore) :
    store.putAll (pairsOf root files) = (.ok (), writeFiles root store files) := by
  induction files generalizing store with
  | nil => rfl
  | cons f rest ih =>
    obtain ⟨hf, hrest⟩ := List.forall_mem_cons.1 h
    rw [pairsOf, List.map_cons, putAll, if_neg (key_ne_empty root f),
      (normalize_key_eq_iff root f).2 hf]
    exact ih hrest (store.insert (f.key root) f.text)

/-- **Loaded files are found again, unless there is a backslash in their key.** Whatever the search
lists, a loading that does not fail stores the files of the disk among the paths listed. Below the
root, the key of a file is a slash and its path below the root; of a file that does not lie there it
is a slash and the whole path.

The keys without a backslash are the ones that have the form in which keys are looked up. Each of
these files is found under its key, with its own text: two files with one key are one file, if both
lie below the root or neither does. A key with a backslash is reached by no lookup.

The same files are embedded under the same keys; where none of these has a backslash, writing the
embedded pairs leaves the same store. -/
theorem loaded_found_again {store store' : AssetStore} {n : Nat}
    (h : store.load search disk root pattern = (.ok n, store')) :
    let files := loadedFiles search disk root pattern
    n = files.length ∧
      (∀ f ∈ files, disk.read f.path = .ok (some f.text) ∧
        (∀ rel, components f.path = components root.toList ++ rel →
          f.key root = String.ofList ('/' :: joinSlashes rel)) ∧
        (¬ LiesBelow root.toList f.path →
          f.key root = String.ofList ('/' :: joinSlashes (components f.path))) ∧
        (normalize (f.key root) = f.key root ↔ '\\' ∉ (f.key root).toList) ∧
        ('\\' ∉ (f.key root).toList →
          (∀ g ∈ files, g.key root = f.key root →
            (LiesBelow root.toList g.path ↔ LiesBelow root.toList f.path)) →
          store'.find? (f.key root) = some f.text) ∧
        ('\\' ∈ (f.key root).toList → ∀ key, normalize key ≠ f.key root)) ∧
      (∀ f ∈ files, ∀ g ∈ files,
        (LiesBelow root.toList f.path ↔ LiesBelow root.toList g.path) →
          f.key root = g.key root → components f.path = components g.path ∧ f.text = g.text) ∧
      ∃ pairs, embedded search disk root pattern = some pairs ∧
        pairs = files.map (fun f => (f.key root, f.text)) ∧
        ((∀ f ∈ files, '\\' ∉ (f.key root).toList) → store.putAll pairs = (.ok (), store')) := by
  intro files
  obtain ⟨hcount, rfl, hembedded⟩ := load_ok h
  refine ⟨hcount, fun f hf => ⟨read_loaded hf, ?_, ?_, normalize_key_eq_iff root f, ?_, ?_⟩, ?_,
    pairsOf root files, hembedded, rfl, fun hplain => putAll_files hplain store⟩
  · intro rel hrel
    rw [LoadedFile.key, assetKey, FilePath.relativeTo_of_append hrel]
  · intro hout
    rw [LoadedFile.key, assetKey, FilePath.relativeTo_of_not hout]
  · intro hplain hbelow
    rw [find?, (normalize_key_eq_iff root f).2 hplain]
    exact get?_loaded hf hbelow store
  · rintro hslash key hkey
    exact backslash_notMem_normalize key (hkey ▸ hslash)
  · intro f hf g hg hbelow hkey
    exact same_of_key hf hg hbelow hkey

/-- A directory of pages that hold the same text. -/
def pages (text : String) (names : List String) : FileTree :=
  .directory (names.map fun name => (name, .file text.toUTF8))

/-- A disk whose working directory holds a directory of pages. -/
def site (text : String) (names : List String) : Disk :=
  ⟨.directory [("srv", .directory [("root", pages text names)])], ["srv"]⟩

/-- A search that lists the same paths for every pattern. -/
def listing (paths : List String) : PathSearch := fun _ _ => .ok (paths.map fun p => .ok p.toList)

/-- One of two pages in a directory is loaded and found, by a relative path of the directory and by
an absolute one. -/
theorem loaded_found_again_of_page :
    let disk := site "page" ["a.hbs", "b.txt"]
    let store : AssetStore := [("/a.hbs", "page")]
    ∀ root ∈ ["root", "/srv/root"],
      load (listing [root ++ "/a.hbs"]) [] disk root "*.hbs" = (.ok 1, store) ∧
        store.find? "/a.hbs" = some "page" := by
  intro disk store root hroot
  have hvalues : load (listing [root ++ "/a.hbs"]) [] disk root "*.hbs" = (.ok 1, store) ∧
      loadedFiles (listing [root ++ "/a.hbs"]) disk root "*.hbs" =
        [⟨(root ++ "/a.hbs").toList, "page"⟩] ∧
      LoadedFile.key root ⟨(root ++ "/a.hbs").toList, "page"⟩ = "/a.hbs" := by
    simp only [List.mem_cons, List.not_mem_nil, or_false] at hroot
    rcases hroot with rfl | rfl
    all_goals
      refine ⟨?_, ?_, ?_⟩
      all_goals cbv
  obtain ⟨hload, hfiles, hkey⟩ := hvalues
  refine ⟨hload, ?_⟩
  obtain ⟨-, hall, -⟩ := loaded_found_again hload
  rw [hfiles] at hall
  obtain ⟨-, -, -, -, hpage, -⟩ := hall _ (List.mem_singleton_self _)
  rw [hkey] at hpage
  exact hpage (by decide) fun g hg _ => by rw [List.mem_singleton.1 hg]

/-- A search may list the files below `./root` without the point in front. They do not lie below the
root then, and their whole paths are their keys. -/
example : load (listing ["root/a.hbs"]) [] (site "page" ["a.hbs"]) "./root" "*.hbs" =
    (.ok 1, [("/root/a.hbs", "page")]) := by
  cbv

/-- A file with a backslash in its name: the loading counts it, and no lookup finds it. -/
theorem loaded_backslash_lost :
    let search := listing ["root/a\\b.hbs"]
    let disk := site "text" ["a\\b.hbs"]
    ∃ store, load search [] disk "root" "*.hbs" = (.ok 1, store) ∧
      loadedFiles search disk "root" "*.hbs" = [⟨"root/a\\b.hbs".toList, "text"⟩] ∧
      LoadedFile.key "root" ⟨"root/a\\b.hbs".toList, "text"⟩ = "/a\\b.hbs" ∧
      normalize "/a\\b.hbs" = "/a/b.hbs" ∧ store.find? "/a\\b.hbs" = none := by
  intro search disk
  refine ⟨[("/a\\b.hbs", "text")], ?_, ?_, ?_, ?_, ?_⟩
  all_goals cbv

end AssetStore

end Stencil
