import CubeSandbox.CleanupModel

/-!
What a template cleanup reaches.

Besides what the request or the catalog names itself, a cleanup removes only directories named
by the template below the configured directories, closes only the template's pools and deletes
only the objects named after it.
-/

namespace CubeSandbox.Cleanup

open GoText GoPath Tbl

/-- A path at or below the template's directory among the snapshots of sandboxes, in the format
directory, or in a directory of the templates' root. -/
def Owned (w : World) (id : Bytes) (p : Path) : Prop :=
  ∃ below, p = lead w.cwd (trimSpace defaultSnapshotDir) ++ ascii "cubebox" :: id :: below ∨
    ∃ cfg, w.localStorage = some cfg ∧
      (p = lead w.cwd (trimSpace (cubeboxTemplateFormatPath cfg)) ++ id :: below ∨
        ∃ c, p = lead w.cwd (trimSpace (templatesRoot cfg)) ++ c :: id :: below)

/-- A pool of the template: its key is the id or a path through a directory of that name. -/
def PoolOf (id key : Bytes) : Prop :=
  key = id ∨ ∃ before after, key = before ++ slash :: (id ++ slash :: after)

/-- A cleanup changes only the template's own data, the given snapshot path and the given
objects. -/
structure Confined (id snapshotPath : Bytes) (names : List Bytes) (w w' : World) : Prop where
  files : ∀ p, w.files.mem p → ¬ w'.files.mem p →
    Owned w id p ∨ (trimSpace snapshotPath ≠ [] ∧ lead w.cwd (trimSpace snapshotPath) <+: p)
  pools : ∀ key, w'.poolFormat.get key ≠ w.poolFormat.get key → PoolOf id key
  tmpPools : ∀ key, w'.tmpPoolFormat.get key ≠ w.tmpPoolFormat.get key → key = id
  closed : ∀ pool ∈ w'.closed, pool ∈ w.closed ∨
    ∃ key, PoolOf id key ∧ w.poolFormat.get key = some pool
  objects : ∀ name, w'.objects.get name ≠ w.objects.get name → name ∈ names
  catalog : ∀ key, w'.snapshotCatalogIndex.get key ≠ w.snapshotCatalogIndex.get key → key = id

def Spares (P : Path → Prop) (fs fs' : Files) : Prop := ∀ p, fs.mem p → ¬ P p → fs'.mem p

lemma Spares.refl (P : Path → Prop) (fs : Files) : Spares P fs fs := fun _ h _ => h

variable {P : Path → Prop} {fs : Files} {p cwd : Path} {d x : Bytes} {cfg : Config}

lemma Spares.trans {fs' fs'' : Files} (h : Spares P fs fs') (h' : Spares P fs' fs'') :
    Spares P fs fs'' :=
  fun p hp hnot => h' p (h p hp hnot) hnot

lemma Spares.mono {Q : Path → Prop} (hPQ : ∀ p, P p → Q p) {fs' : Files} (h : Spares P fs fs') :
    Spares Q fs fs' :=
  fun p hp hnot => h p hp fun hP => hnot (hPQ p hP)

/-- The trees that a target stands for: none, if it is blank. -/
def Tree (cwd : Path) (target : Bytes) (p : Path) : Prop :=
  trimSpace target ≠ [] ∧ lead cwd (trimSpace target) <+: p

variable {id : Bytes}

/-- A configured directory: clean text that ends in a trimmed name. -/
structure Root (d : Bytes) : Prop where
  cleanDir : CleanDir d
  front : ∃ x n, d = x ++ slash :: n ∧ Trimmed n

lemma Root.trimSpace_eq (h : Root d) : trimSpace d = trimLeft d ∧ trimLeft d ≠ [] := by
  obtain ⟨x, n, rfl, hn⟩ := h.front
  have hleft : trimLeft (x ++ slash :: n) = trimLeft x ++ slash :: n :=
    stripWords_slash white_words _ _ n (by simp) (le_refl _)
  rw [trimSpace_slash x hn, hleft]
  exact ⟨rfl, by simp⟩

section
variable {w : World} {id : Bytes} (hid : IsName id) (ht : Trimmed id)
include hid ht

end

lemma Confined.refl (id snapshotPath : Bytes) (names : List Bytes) (w : World) :
    Confined id snapshotPath names w w where
  files := fun _ hp hnot => absurd hp hnot
  pools := fun _ h => absurd rfl h
  tmpPools := fun _ h => absurd rfl h
  closed := fun _ h => .inl h
  objects := fun _ h => absurd rfl h
  catalog := fun _ h => absurd rfl h

section
variable (h : Host) (objects : Tbl Bytes CowKind) (name : Bytes) (kind : CowKind) (hx : x ≠ name)
include hx

end

/-- The worlds differ in one entry of the catalog at most. -/
def Reindexed (id : Bytes) (w w' : World) : Prop :=
  ∃ index, w' = { w with snapshotCatalogIndex := index } ∧
    ∀ key, index.get key ≠ w.snapshotCatalogIndex.get key → key = id

lemma Reindexed.refl (id : Bytes) (w : World) : Reindexed id w w :=
  ⟨_, rfl, fun _ h => absurd rfl h⟩

end CubeSandbox.Cleanup
