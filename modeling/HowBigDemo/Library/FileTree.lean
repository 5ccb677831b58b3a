import HowBigDemo.Library.Dictionary

namespace Library

universe u

/-!
# File trees below one directory

A tree lists its entries with their paths below the root.  Every tree is
well formed by construction: no path has two entries, the root is not an
entry of itself, and whatever lies above an entry is a directory.  So a file
has nothing below it, and removing a file removes that file only.

The operations are the ones a file manager offers: create a file where
nothing is, replace the content of a file, and remove an entry with
everything below it.  Each comes with the lookup of the tree it leaves.
-/

/-- A path below the root, as its components. -/
abbrev EntryPath := List String

/-- What an entry is. -/
inductive Node (Content : Type u)
  | directory
  | file (content : Content)
  deriving DecidableEq

/-- Change the content of a file. -/
def Node.map {Content : Type u} (change : Content -> Content) : Node Content -> Node Content
  | .directory => .directory
  | .file content => .file (change content)

/-- The entries below a directory. -/
structure FileTree (Content : Type u) where
  entries : List (EntryPath × Node Content)
  unique : (entries.map Prod.fst).Nodup
  rooted : [] ∉ entries.map Prod.fst
  above : forall path, path ∈ entries.map Prod.fst -> forall parent, parent <+: path ->
    parent ≠ [] -> parent ≠ path -> (parent, Node.directory) ∈ entries

namespace FileTree

variable {Content : Type u}

/-- The paths of all entries. -/
def paths (tree : FileTree Content) : List EntryPath :=
  tree.entries.map Prod.fst

/-- The entry at a path. -/
def lookup (tree : FileTree Content) (path : EntryPath) : Option (Node Content) :=
  tree.entries.lookup path

/-- The tree without entries. -/
def empty : FileTree Content where
  entries := []
  unique := List.nodup_nil
  rooted := List.not_mem_nil
  above := by
    intro path member
    cases member

/-- A lookup finds exactly the entry at the path. -/
theorem lookup_eq_some_iff {tree : FileTree Content} {path : EntryPath} {node : Node Content} :
    tree.lookup path = some node ↔ (path, node) ∈ tree.entries :=
  Dictionary.lookup_eq_some_iff tree.unique path node

theorem mem_paths_iff {tree : FileTree Content} {path : EntryPath} :
    path ∈ tree.paths ↔ Exists fun node => tree.lookup path = some node := by
  unfold paths
  rw [List.mem_map]
  constructor
  · rintro ⟨⟨_, node⟩, member, rfl⟩
    exact ⟨node, lookup_eq_some_iff.mpr member⟩
  · rintro ⟨node, found⟩
    exact ⟨(path, node), lookup_eq_some_iff.mp found, rfl⟩

/-- Whether there is an entry is decided by looking it up. -/
instance (tree : FileTree Content) (path : EntryPath) : Decidable (path ∈ tree.paths) :=
  decidable_of_iff ((tree.lookup path).isSome = true) (by
    rw [mem_paths_iff, Option.isSome_iff_exists])

theorem mem_paths_of_lookup {tree : FileTree Content} {path : EntryPath} {node : Node Content}
    (found : tree.lookup path = some node) : path ∈ tree.paths :=
  mem_paths_iff.mpr ⟨node, found⟩

theorem not_mem_paths_iff {tree : FileTree Content} {path : EntryPath} :
    path ∉ tree.paths ↔ tree.lookup path = none := by
  rw [mem_paths_iff]
  cases tree.lookup path with
  | none =>
      constructor
      · intro _
        rfl
      · rintro _ ⟨_, impossible⟩
        cases impossible
  | some node =>
      constructor
      · intro absent
        exact absurd ⟨node, rfl⟩ absent
      · intro impossible
        cases impossible

/-- Entries lie below directories only. -/
theorem eq_of_below {tree : FileTree Content} {path below : EntryPath}
    (member : below ∈ tree.paths) (isPrefix : path <+: below) (nonempty : path ≠ [])
    (file : tree.lookup path ≠ some .directory) : below = path := by
  by_cases same : path = below
  · exact same.symm
  · exact absurd (lookup_eq_some_iff.mpr (tree.above below member path isPrefix nonempty same)) file

/-! ## Removing an entry -/

/-- Remove an entry with everything below it. -/
def remove (tree : FileTree Content) (path : EntryPath) : FileTree Content where
  entries := tree.entries.filter fun entry => ! path.isPrefixOf entry.1
  unique := (List.filter_sublist.map Prod.fst).nodup tree.unique
  rooted := fun impossible => tree.rooted ((List.filter_sublist.map Prod.fst).subset impossible)
  above := by
    intro below member parent isPrefix nonempty different
    rcases List.mem_map.mp member with ⟨entry, kept, rfl⟩
    rcases List.mem_filter.mp kept with ⟨listed, outside⟩
    have directory := tree.above entry.1 (List.mem_map_of_mem listed) parent isPrefix nonempty
      different
    refine List.mem_filter.mpr ⟨directory, ?_⟩
    rw [Bool.not_eq_true'] at outside ⊢
    rw [← Bool.not_eq_true, List.isPrefixOf_iff_prefix] at outside ⊢
    intro inside
    exact outside (inside.trans isPrefix)

theorem lookup_remove_below {tree : FileTree Content} {path below : EntryPath}
    (isPrefix : path <+: below) : (tree.remove path).lookup below = none := by
  apply not_mem_paths_iff.mp
  intro member
  rcases List.mem_map.mp member with ⟨entry, kept, rfl⟩
  have outside := (List.mem_filter.mp kept).2
  rw [List.isPrefixOf_iff_prefix.mpr isPrefix] at outside
  cases outside

theorem lookup_remove_elsewhere {tree : FileTree Content} {path other : EntryPath}
    (outside : ¬ path <+: other) : (tree.remove path).lookup other = tree.lookup other := by
  apply Option.ext
  intro node
  rw [lookup_eq_some_iff, lookup_eq_some_iff]
  change (other, node) ∈ tree.entries.filter _ ↔ _
  rw [List.mem_filter]
  constructor
  · intro kept
    exact kept.1
  · intro member
    refine ⟨member, ?_⟩
    rw [Bool.not_eq_true', ← Bool.not_eq_true, List.isPrefixOf_iff_prefix]
    exact outside

/-- Removing never adds or changes an entry. -/
theorem lookup_of_lookup_remove {tree : FileTree Content} {path other : EntryPath}
    {node : Node Content} (kept : (tree.remove path).lookup other = some node) :
    tree.lookup other = some node := by
  by_cases isPrefix : path <+: other
  · rw [lookup_remove_below isPrefix] at kept
    cases kept
  · rw [lookup_remove_elsewhere isPrefix] at kept
    exact kept

/-! ## Creating a file -/

/-- Add a file to the root directory where no entry has its name. -/
def add (tree : FileTree Content) (name : String) (content : Content)
    (free : [name] ∉ tree.paths) : FileTree Content where
  entries := tree.entries ++ [([name], .file content)]
  unique := by
    rw [List.map_append, List.nodup_append]
    refine ⟨tree.unique, List.pairwise_singleton _ _, ?_⟩
    intro path member other new same
    rw [same, List.mem_singleton.mp new] at member
    exact free member
  rooted := by
    rw [List.map_append, List.mem_append]
    rintro (old | new)
    · exact tree.rooted old
    · cases List.mem_singleton.mp new
  above := by
    intro path member parent isPrefix nonempty different
    rw [List.map_append, List.mem_append] at member
    apply List.mem_append_left
    rcases member with old | new
    · exact tree.above path old parent isPrefix nonempty different
    · rw [List.mem_singleton.mp new] at isPrefix different
      rcases List.prefix_concat_iff.mp (show parent <+: [] ++ [name] from isPrefix) with equal | within
      · exact absurd equal different
      · exact absurd (List.prefix_nil.mp within) nonempty

/-- Create a file in the root directory, unless there is an entry of that
name. -/
def create (tree : FileTree Content) (name : String) (content : Content) : FileTree Content :=
  if free : [name] ∉ tree.paths then tree.add name content free else tree

theorem create_of_mem {tree : FileTree Content} {name : String} (content : Content)
    (taken : [name] ∈ tree.paths) : tree.create name content = tree :=
  dif_neg (not_not.mpr taken)

theorem lookup_create_self {tree : FileTree Content} {name : String} (content : Content)
    (free : [name] ∉ tree.paths) :
    (tree.create name content).lookup [name] = some (.file content) := by
  rw [create, dif_pos free, lookup_eq_some_iff]
  exact List.mem_append_right _ List.mem_cons_self

theorem lookup_create_of_ne {tree : FileTree Content} {name : String} (content : Content)
    {path : EntryPath} (different : path ≠ [name]) :
    (tree.create name content).lookup path = tree.lookup path := by
  by_cases free : [name] ∉ tree.paths
  · refine Option.ext fun node => ?_
    rw [create, dif_pos free, lookup_eq_some_iff, lookup_eq_some_iff]
    change _ ∈ tree.entries ++ [([name], Node.file content)] ↔ _
    rw [List.mem_append, List.mem_singleton]
    constructor
    · rintro (old | new)
      · exact old
      · exact absurd (congrArg Prod.fst new) different
    · intro old
      exact Or.inl old
  · rw [create, dif_neg free]

/-- Creating never changes an entry. -/
theorem lookup_create_of_lookup {tree : FileTree Content} {name : String} (content : Content)
    {path : EntryPath} {node : Node Content} (found : tree.lookup path = some node) :
    (tree.create name content).lookup path = some node := by
  by_cases same : path = [name]
  · subst same
    rw [create_of_mem content (mem_paths_of_lookup found)]
    exact found
  · rw [lookup_create_of_ne content same]
    exact found

/-- Whoever creates a file finds an entry of that name afterwards. -/
theorem mem_paths_create_self (tree : FileTree Content) (name : String) (content : Content) :
    [name] ∈ (tree.create name content).paths := by
  by_cases taken : [name] ∈ tree.paths
  · rw [create_of_mem content taken]
    exact taken
  · exact mem_paths_of_lookup (lookup_create_self content taken)

theorem mem_paths_create_of_mem {tree : FileTree Content} {name : String} (content : Content)
    {path : EntryPath} (member : path ∈ tree.paths) : path ∈ (tree.create name content).paths := by
  rcases mem_paths_iff.mp member with ⟨node, found⟩
  exact mem_paths_of_lookup (lookup_create_of_lookup content found)

theorem mem_paths_create_of_ne {tree : FileTree Content} {name : String} (content : Content)
    {path : EntryPath} (different : path ≠ [name]) :
    path ∈ (tree.create name content).paths ↔ path ∈ tree.paths := by
  rw [mem_paths_iff, mem_paths_iff, lookup_create_of_ne content different]

/-- An entry after a creation was there before or is the new file. -/
theorem lookup_create_cases {tree : FileTree Content} {name : String} {content : Content}
    {path : EntryPath} {node : Node Content}
    (found : (tree.create name content).lookup path = some node) :
    tree.lookup path = some node ∨ (path = [name] ∧ node = .file content) := by
  by_cases same : path = [name]
  · subst same
    by_cases taken : [name] ∈ tree.paths
    · rw [create_of_mem content taken] at found
      exact Or.inl found
    · rw [lookup_create_self content taken] at found
      cases found
      exact Or.inr ⟨rfl, rfl⟩
  · rw [lookup_create_of_ne content same] at found
    exact Or.inl found

/-! ## Replacing the content of a file -/

/-- Change the content of the file at a path.  Paths and kinds stay. -/
def modify (tree : FileTree Content) (path : EntryPath) (change : Content -> Content) :
    FileTree Content where
  entries := tree.entries.map fun entry =>
    (entry.1, if entry.1 = path then entry.2.map change else entry.2)
  unique := by
    rw [List.map_map]
    exact tree.unique
  rooted := by
    rw [List.map_map]
    exact tree.rooted
  above := by
    intro below member parent isPrefix nonempty different
    rw [List.map_map] at member
    refine List.mem_map.mpr ⟨_, tree.above below member parent isPrefix nonempty different, ?_⟩
    by_cases same : parent = path
    · simp only [if_pos same, Node.map]
    · simp only [if_neg same]

theorem paths_modify (tree : FileTree Content) (path : EntryPath) (change : Content -> Content) :
    (tree.modify path change).paths = tree.paths :=
  List.map_map

/-- Other entries are not changed. -/
theorem lookup_modify_of_ne {tree : FileTree Content} {path other : EntryPath}
    {change : Content -> Content} (different : other ≠ path) :
    (tree.modify path change).lookup other = tree.lookup other := by
  apply Option.ext
  intro node
  rw [lookup_eq_some_iff, lookup_eq_some_iff]
  constructor
  · intro member
    rcases List.mem_map.mp member with ⟨⟨listed, old⟩, kept, same⟩
    rw [Prod.mk.injEq] at same
    rcases same with ⟨rfl, rfl⟩
    rw [if_neg different]
    exact kept
  · intro member
    exact List.mem_map.mpr ⟨_, member, by rw [if_neg different]⟩

end FileTree
end Library
