-- Stores that keep their documents. The store in memory does, and so does the store of files:
-- the directories that were made for a document lead to it again.
import TopologySync.Settings.FileTree

namespace TopologySync

/-! ## What a store is to do -/

namespace DocumentStore

variable {σ : Type} [DocumentStore σ]

/-- The store cannot tell what the document of a key is. -/
def Fails (store : σ) (key : String) : Prop :=
  ∃ e, (read store key).1 = .error e ∧ e ≠ .notFound

/-- The store has no document of a key, or an empty one. -/
def Vacant (store : σ) (key : String) : Prop :=
  (read store key).1 = .error .notFound ∨ (read store key).1 = .ok []

theorem occupied_of_document {store : σ} {key : String} {document : Bytes}
    (h : (read store key).1 = .ok document) (hdocument : document ≠ []) : ¬Vacant store key := by
  rintro (hmissing | hempty)
  · cases h.symm.trans hmissing
  · exact hdocument (Except.ok.inj (h.symm.trans hempty))

theorem occupied_of_error {store : σ} {key : String} {e : SettingsError}
    (h : (read store key).1 = .error e) (he : e ≠ .notFound) : ¬Vacant store key := by
  rintro (hmissing | hempty)
  · exact he (Except.error.inj (h.symm.trans hmissing))
  · cases h.symm.trans hempty

/-- All documents read the same. -/
def SameDocuments (store store' : σ) : Prop :=
  ∀ key, (read store' key).1 = (read store key).1

/-- A store keeps its documents: reading changes none, and what was written under a key is read
under it, if the store can be read at all. -/
class Keeps (σ : Type) [DocumentStore σ] : Prop where
  read_same : ∀ (store : σ) (key : String), SameDocuments store (read store key).2
  read_written : ∀ (store : σ) (key : String) (document : Bytes), ¬Fails store key →
    (write store key document).1 = .ok () →
    (read (write store key document).2 key).1 = .ok document

end DocumentStore

/-! ## The store in memory -/

instance : DocumentStore.Keeps MemoryStore where
  read_same _ _ _ := rfl
  read_written store key document hreads hwrite := by
    have hreads : store.refusesReads = false := by
      cases hrefuses : store.refusesReads with
      | false => rfl
      | true => exact absurd ⟨_, if_pos hrefuses, nofun⟩ hreads
    simp only [DocumentStore.write, MemoryStore.write] at hwrite ⊢
    split at hwrite
    · cases hwrite
    next hwrites => simp [hwrites, DocumentStore.read, MemoryStore.read, hreads]

/-! ## The store of files -/

namespace FileTree

variable {tree : FileTree} {here there : List String}

theorem walk_append (first second : List String) :
    tree.walk here (first ++ second) =
      tree.walk here first >>= fun here => tree.walk here second := by
  induction first generalizing here with
  | nil => rfl
  | cons name rest ih =>
    rw [List.cons_append, walk, walk]
    split
    · exact ih
    split
    · exact ih
    simp only
    split
    · exact ih
    · split <;> rfl

/-- Names that lead nowhere do not matter. -/
theorem walk_here {names : List String} (h : ∀ name ∈ names, isHere name = true) :
    tree.walk here names = .ok here := by
  induction names with
  | nil => rfl
  | cons name rest ih =>
    obtain ⟨hname, hrest⟩ := List.forall_mem_cons.1 h
    rw [walk, if_pos hname, ih hrest]

/-- The way to a file leads through its directory. -/
theorem walk_parentOf (names : List String) :
    tree.walk here names.dropLast = tree.walk here (parentOf names) := by
  have hhere : ∀ name ∈ (names.dropLast.reverse.takeWhile isHere).reverse, isHere name = true := by
    intro name hname
    exact List.all_eq_true.1 List.all_takeWhile name (List.mem_reverse.1 hname)
  have hsplit : names.dropLast =
      parentOf names ++ (names.dropLast.reverse.takeWhile isHere).reverse := by
    rw [parentOf, ← List.reverse_append, List.takeWhile_append_dropWhile, List.reverse_reverse]
  conv => lhs; rw [hsplit]
  rw [walk_append]
  cases tree.walk here (parentOf names) with
  | error e => rfl
  | ok there => exact walk_here hhere

/-- Directories stay when more of them are made. -/
theorem makeDirectories_keeps {names path : List String} (h : tree.isDirectory path = true) :
    (tree.makeDirectories here names).2.isDirectory path = true := by
  induction names generalizing tree here with
  | nil => exact h
  | cons name rest ih =>
    rw [makeDirectories]
    split
    · exact ih h
    split
    · exact ih h
    simp only
    split
    · exact ih h
    split
    · exact h
    · refine ih ?_
      rw [isDirectory, Bool.or_eq_true] at h ⊢
      exact h.imp_right (fun h => by simp [Std.ExtTreeSet.contains_insert, h])

/-- Names that lead from a directory to another one, through directories that are there. -/
inductive Leads (tree : FileTree) : List String → List String → List String → Prop where
  | nil (here : List String) : Leads tree here [] here
  | stay {here there rest : List String} {name : String} (hname : isHere name = true)
    (hrest : Leads tree here rest there) : Leads tree here (name :: rest) there
  | back {here there rest : List String} (hrest : Leads tree here.dropLast rest there) :
    Leads tree here (".." :: rest) there
  | into {here there rest : List String} {name : String} (hname : ¬isHere name = true)
    (hback : name ≠ "..") (hdirectory : tree.isDirectory (here ++ [name]) = true)
    (hrest : Leads tree (here ++ [name]) rest there) : Leads tree here (name :: rest) there

/-- Names still lead there in a tree with more directories, whatever its files. -/
theorem Leads.mono {tree' : FileTree} {names : List String} (h : tree.Leads here names there)
    (hkept : ∀ path, tree.isDirectory path = true → tree'.isDirectory path = true) :
    tree'.Leads here names there := by
  induction h with
  | nil => exact .nil _
  | stay hname _ ih => exact .stay hname ih
  | back _ ih => exact .back ih
  | into hname hback hdirectory _ ih => exact .into hname hback (hkept _ hdirectory) ih

theorem Leads.walk {names : List String} (h : tree.Leads here names there) :
    tree.walk here names = .ok there := by
  induction h with
  | nil => rfl
  | stay hname _ ih => rw [FileTree.walk, if_pos hname, ih]
  | back _ ih => rw [FileTree.walk, if_neg (by decide), if_pos rfl, ih]
  | into hname hback hdirectory _ ih =>
    rw [FileTree.walk, if_neg hname, if_neg hback]
    simp only [hdirectory, if_true]
    exact ih

/-- The directories that were made lead to the last of them. -/
theorem leads_makeDirectories {names : List String} {tree' : FileTree}
    (h : tree.makeDirectories here names = (.ok there, tree')) : tree'.Leads here names there := by
  induction names generalizing tree here with
  | nil =>
    cases h
    exact .nil _
  | cons name rest ih =>
    rw [makeDirectories] at h
    split at h
    next hname => exact .stay hname (ih h)
    split at h
    next hback =>
      subst hback
      exact .back (ih h)
    next hname hback =>
      -- The next directory was there or was made, and from it on the rest was made.
      have hnext : ∃ made : FileTree, made.isDirectory (here ++ [name]) = true ∧
          made.makeDirectories (here ++ [name]) rest = (.ok there, tree') := by
        simp only at h
        split at h
        next hdirectory => exact ⟨tree, hdirectory, h⟩
        next =>
          split at h
          · cases h
          · exact ⟨_, by simp [isDirectory], h⟩
      obtain ⟨made, hdirectory, hmade⟩ := hnext
      have hkept : (made.makeDirectories (here ++ [name]) rest).2.isDirectory (here ++ [name]) =
          true := makeDirectories_keeps hdirectory
      rw [hmade] at hkept
      exact .into hname hback hkept (ih hmade)

end FileTree

namespace FileStore

/-- The directory of a document is looked up first. -/
theorem read_walked (store : FileStore) {key : String} {start names there : List String}
    (hpath : store.documentPath key = (start, names))
    (hvalid : FileTree.validPath (start ++ names) = true)
    (hwalk : store.tree.walk start names.dropLast = .ok there) :
    (store.read key).1 = (store.tree.readIn there (names.getLastD "")).mapError ofFileError := by
  rw [read, hpath]
  simp only [hvalid, hwalk, not_true, if_false]
  rfl

/-- A document that was written is a file in its directory. -/
theorem write_ok {store : FileStore} {key : String} {document : Bytes}
    (h : (store.write key document).1 = .ok ()) :
    ∃ start names there tree, store.documentPath key = (start, names) ∧
      FileTree.validPath (start ++ names) = true ∧
      store.tree.makeDirectories start (FileTree.parentOf names) = (.ok there, tree) ∧
      (store.write key document).2 = { store with tree := { tree with
        files := tree.files.insert (there ++ [names.getLastD ""]) document } } := by
  rcases hpath : store.documentPath key with ⟨start, names⟩
  rw [write, hpath] at h ⊢
  simp only at h ⊢
  split at h
  · cases h
  next hdirectories =>
    rw [if_neg hdirectories]
    rcases hmade : store.tree.makeDirectories start (FileTree.parentOf names) with ⟨_ | there, tree⟩
    · rw [hmade] at h
      cases h
    rw [hmade] at h
    simp only at h ⊢
    split at h
    · cases h
    next hvalid =>
      rw [if_neg hvalid]
      rw [FileTree.writeIn] at h ⊢
      split at h
      · cases h
      next hfree =>
        rw [if_neg hfree]
        exact ⟨start, names, there, tree, rfl, Decidable.not_not.1 hvalid, hmade, rfl⟩

theorem read_written (store : FileStore) (key : String) (document : Bytes)
    (h : (store.write key document).1 = .ok ()) :
    ((store.write key document).2.read key).1 = .ok document := by
  obtain ⟨start, names, there, tree, hpath, hvalid, hmade, hstore⟩ := write_ok h
  let written : FileTree :=
    { tree with files := tree.files.insert (there ++ [names.getLastD ""]) document }
  have hleads : written.Leads start (FileTree.parentOf names) there :=
    (FileTree.leads_makeDirectories hmade).mono (fun _ hdirectory => hdirectory)
  have hwalk : written.walk start names.dropLast = .ok there := by
    rw [FileTree.walk_parentOf]
    exact hleads.walk
  have hread := read_walked { store with tree := written } hpath hvalid hwalk
  have hfound : written.files[there ++ [names.getLastD ""]]? = some document :=
    Std.ExtTreeMap.getElem?_insert_self
  rw [hstore, hread, FileTree.readIn]
  simp only [hfound]
  rfl

instance : DocumentStore.Keeps FileStore where
  read_same _ _ _ := rfl
  read_written store key document _ h := read_written store key document h

end FileStore

end TopologySync
