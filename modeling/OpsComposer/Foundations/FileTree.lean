import Mathlib.Data.List.Infix
import Mathlib.Tactic.ByContra

/-!
# File trees

A tree of files and directories, by the components of their paths below a root
that is always there.  `FileTree.write` creates the directories above a file, as
far as they are missing, and then writes the file; it fails where a directory
would have to be made in the place of a file, or a file in the place of a
directory.

Files can be written one after the other, into an empty tree and in whatever
order, exactly if no path is a proper prefix of another (`writeAll_iff`).

`FileTree.walk` follows the components of a path from a directory, without links.
-/

set_option autoImplicit false

namespace OpsComposer.Foundations

variable {ν β : Type}

/-- Directories and files, each under the names that lead to it. -/
structure FileTree (ν β : Type) where
  directories : List (List ν) := []
  files : List (List ν × β) := []
  deriving DecidableEq, Repr

/-- No path lies below another. -/
def PrefixFree (paths : List (List ν)) : Prop :=
  ∀ path ∈ paths, ∀ other ∈ paths, path <+: other → path = other

theorem prefixFree_append_singleton {paths : List (List ν)} {path : List ν} :
    PrefixFree (paths ++ [path]) ↔ PrefixFree paths ∧
      ∀ other ∈ paths, (path <+: other → path = other) ∧ (other <+: path → other = path) := by
  simp only [PrefixFree, List.forall_mem_append, List.forall_mem_singleton]
  constructor
  · rintro ⟨old, new⟩
    exact ⟨fun p member => (old p member).1,
      fun other member => ⟨new.1 other member, (old other member).2⟩⟩
  · rintro ⟨free, apart⟩
    exact ⟨fun p member => ⟨free p member, (apart p member).2⟩,
      fun other member => (apart other member).1, fun _ => trivial⟩

namespace FileTree

/-- The directories above a path, from the root downwards. -/
def parents (path : List ν) : List (List ν) := path.dropLast.inits.tail

theorem mem_parents {path directory : List ν} :
    directory ∈ parents path ↔ directory ≠ [] ∧ directory <+: path ∧ directory ≠ path := by
  have tail : directory ∈ parents path ↔ directory ≠ [] ∧ directory <+: path.dropLast := by
    rw [parents, ← List.mem_inits]
    cases path.dropLast with
    | nil => simp
    | cons name rest =>
        simp only [List.inits_cons, List.tail_cons, List.mem_cons, ← exists_prop]
        constructor
        · intro member
          obtain ⟨inner, -, rfl⟩ := List.mem_map.mp member
          exact ⟨List.cons_ne_nil _ _, .inr member⟩
        · rintro ⟨some, none | member⟩
          · exact absurd none some
          · exact member
  rw [tail]
  refine and_congr_right fun some => ?_
  constructor
  · intro above
    refine ⟨above.trans (List.dropLast_prefix path), ?_⟩
    rintro rfl
    have shorter := above.length_le
    have long := List.length_pos_iff.mpr some
    rw [List.length_dropLast] at shorter
    omega
  · rintro ⟨⟨rest, rfl⟩, other⟩
    have more : rest ≠ [] := by
      rintro rfl
      exact other (by simp)
    rw [List.dropLast_append_of_ne_nil more]
    exact List.prefix_append _ _

section Writing

variable [DecidableEq ν]

/-- `mkdir` of a directory whose parent is there; `none` is an `OSError`. -/
def makeDirectory (tree : FileTree ν β) (path : List ν) : Option (FileTree ν β) :=
  if path ∈ tree.directories then some tree
  else if path ∈ tree.files.map Prod.fst then none
  else some { tree with directories := path :: tree.directories }

/-- `path.parent.mkdir(parents=True, exist_ok=True)`. -/
def makeParents (tree : FileTree ν β) (path : List ν) : Option (FileTree ν β) :=
  (parents path).foldlM makeDirectory tree

/-- `path.write_text(content)` in a directory that is there. -/
def writeText (tree : FileTree ν β) (path : List ν) (content : β) : Option (FileTree ν β) :=
  if path ∈ tree.directories then none
  else some { tree with
    files := (path, content) :: tree.files.filter fun file => file.1 ≠ path }

/-- The parents of a file are made, and then its text is written. -/
def write (tree : FileTree ν β) (item : List ν × β) : Option (FileTree ν β) :=
  (tree.makeParents item.1).bind fun tree => tree.writeText item.1 item.2

/-- The files are written one after the other into an empty tree. -/
def writeAll (items : List (List ν × β)) : Option (FileTree ν β) := items.foldlM write {}

/-! ## One file -/

variable {tree : FileTree ν β}

/-- No directory has the place of a file. -/
def Apart (tree : FileTree ν β) : Prop :=
  ∀ path ∈ tree.directories, path ∉ tree.files.map Prod.fst

/-- **Directories are made** exactly where no file is. -/
theorem foldlM_makeDirectory (apart : tree.Apart) (paths : List (List ν)) :
    ((∀ path ∈ paths, path ∉ tree.files.map Prod.fst) →
      ∃ tree', paths.foldlM makeDirectory tree = some tree' ∧ tree'.files = tree.files ∧
        ∀ path, path ∈ tree'.directories ↔ path ∈ tree.directories ∨ path ∈ paths) ∧
    ((∃ path ∈ paths, path ∈ tree.files.map Prod.fst) →
      paths.foldlM makeDirectory tree = none) := by
  induction paths generalizing tree with
  | nil => exact ⟨fun _ => ⟨tree, rfl, rfl, by simp⟩, by simp⟩
  | cons path paths ih =>
      rw [List.foldlM_cons, makeDirectory]
      by_cases there : path ∈ tree.directories
      · rw [if_pos there, Option.bind_eq_bind, Option.bind_some]
        obtain ⟨made, refused⟩ := ih apart
        constructor
        · intro free
          obtain ⟨tree', fold, files, directories⟩ :=
            made fun other member => free other (List.mem_cons_of_mem _ member)
          refine ⟨tree', fold, files, fun other => ?_⟩
          rw [directories, List.mem_cons]
          constructor
          · rintro (old | new)
            · exact .inl old
            · exact .inr (.inr new)
          · rintro (old | rfl | new)
            · exact .inl old
            · exact .inl there
            · exact .inr new
        · rintro ⟨other, member, file⟩
          rcases List.mem_cons.mp member with rfl | later
          · exact absurd file (apart other there)
          · exact refused ⟨other, later, file⟩
      · rw [if_neg there]
        by_cases file : path ∈ tree.files.map Prod.fst
        · rw [if_pos file]
          exact ⟨fun free => absurd file (free path List.mem_cons_self), fun _ => rfl⟩
        · rw [if_neg file, Option.bind_eq_bind, Option.bind_some]
          have still : ({ tree with directories := path :: tree.directories } :
              FileTree ν β).Apart := by
            intro other member
            rcases List.mem_cons.mp member with rfl | old
            · exact file
            · exact apart other old
          obtain ⟨made, refused⟩ := ih still
          constructor
          · intro free
            obtain ⟨tree', fold, files, directories⟩ :=
              made fun other member => free other (List.mem_cons_of_mem _ member)
            refine ⟨tree', fold, files, fun other => ?_⟩
            rw [directories, List.mem_cons, List.mem_cons]
            tauto
          · rintro ⟨other, member, there⟩
            rcases List.mem_cons.mp member with here | later
            · exact absurd (here ▸ there) file
            · exact refused ⟨other, later, there⟩

/-! ## Many files -/

/-- What the tree is when some files have been written into an empty one. -/
structure Holds (tree : FileTree ν β) (items : List (List ν × β)) : Prop where
  directories : ∀ path, path ∈ tree.directories ↔ ∃ item ∈ items, path ∈ parents item.1
  files : ∀ path, path ∈ tree.files.map Prod.fst ↔ path ∈ items.map Prod.fst
  contents : (items.map Prod.fst).Nodup → tree.files = items.reverse
  free : PrefixFree (items.map Prod.fst)

variable {items : List (List ν × β)}

omit [DecidableEq ν] in
/-- Nothing is both a file and a directory. -/
theorem Holds.apart (holds : tree.Holds items) : tree.Apart := by
  intro path directory file
  obtain ⟨item, member, above⟩ := (holds.directories path).mp directory
  obtain ⟨-, below, other⟩ := mem_parents.mp above
  exact other (holds.free path ((holds.files path).mp file) item.1
    (List.mem_map_of_mem member) below)

/-- **One more file** is written exactly if its path is neither above nor below
the ones that are there. -/
theorem Holds.write (holds : tree.Holds items) {item : List ν × β}
    (some : item.1 ≠ []) (others : ∀ other ∈ items, other.1 ≠ []) :
    (PrefixFree ((items ++ [item]).map Prod.fst) → ∃ tree', tree.write item = Option.some tree' ∧
      tree'.Holds (items ++ [item])) ∧
    (¬ PrefixFree ((items ++ [item]).map Prod.fst) → tree.write item = none) := by
  rw [List.map_append, List.map_singleton]
  obtain ⟨made, refused⟩ := foldlM_makeDirectory holds.apart (parents item.1)
  constructor
  · intro free
    obtain ⟨-, apart⟩ := prefixFree_append_singleton.mp free
    obtain ⟨tree', fold, files, directories⟩ := made fun path above file => by
      obtain ⟨-, below, other⟩ := mem_parents.mp above
      exact other ((apart path ((holds.files path).mp file)).2 below)
    have vacant : item.1 ∉ tree'.directories := by
      intro there
      rcases (directories item.1).mp there with old | new
      · obtain ⟨other, member, above⟩ := (holds.directories item.1).mp old
        obtain ⟨-, below, different⟩ := mem_parents.mp above
        exact different ((apart other.1 (List.mem_map_of_mem member)).1 below)
      · exact (mem_parents.mp new).2.2 rfl
    refine ⟨{ tree' with files := item :: tree.files.filter fun file => file.1 ≠ item.1 }, ?_,
      ⟨?_, ?_, ?_, ?_⟩⟩
    · rw [FileTree.write, makeParents, fold, Option.bind_some, writeText, if_neg vacant, files]
    · intro path
      rw [directories, holds.directories]
      simp [or_and_right, exists_or]
    · intro path
      by_cases same : path = item.1
      · simp [same]
      · have old := holds.files path
        simp only [List.mem_map] at old
        simp only [List.map_cons, List.mem_cons, same, false_or, List.map_append, List.map_nil,
          List.mem_append, List.not_mem_nil, or_false, List.mem_map, List.mem_filter,
          decide_eq_true_eq]
        rw [← old]
        constructor
        · rintro ⟨file, ⟨member, -⟩, rfl⟩
          exact ⟨file, member, rfl⟩
        · rintro ⟨file, member, rfl⟩
          exact ⟨file, ⟨member, same⟩, rfl⟩
    · intro distinct
      rw [List.map_append, List.nodup_append] at distinct
      obtain ⟨before, -, new⟩ := distinct
      have kept : (tree.files.filter fun file => decide (file.1 ≠ item.1)) = tree.files := by
        refine List.filter_eq_self.mpr fun file member => ?_
        have there := (holds.files file.1).mp (List.mem_map_of_mem member)
        simpa using new file.1 there item.1 (by simp)
      rw [kept, holds.contents before]
      simp
    · simpa using free
  · intro clash
    by_cases blocked : ∃ path ∈ parents item.1, path ∈ tree.files.map Prod.fst
    · rw [FileTree.write, makeParents, refused blocked]
      rfl
    · have clear : ∀ path ∈ parents item.1, path ∉ tree.files.map Prod.fst :=
        fun path above file => blocked ⟨path, above, file⟩
      obtain ⟨tree', fold, files, directories⟩ := made clear
      have taken : item.1 ∈ tree'.directories := by
        by_contra vacant
        refine clash (prefixFree_append_singleton.mpr ⟨holds.free, fun path member => ⟨?_, ?_⟩⟩)
        · intro below
          by_contra different
          obtain ⟨other, there, rfl⟩ := List.mem_map.mp member
          exact vacant ((directories item.1).mpr (.inl ((holds.directories item.1).mpr
            ⟨other, there, mem_parents.mpr ⟨some, below, different⟩⟩)))
        · intro below
          by_contra different
          obtain ⟨other, there, rfl⟩ := List.mem_map.mp member
          exact clear other.1 (mem_parents.mpr ⟨others other there, below, different⟩)
            ((holds.files other.1).mpr member)
      rw [FileTree.write, makeParents, fold, Option.bind_some, writeText, if_pos taken]

/-- The files that are written after others. -/
theorem Holds.foldlM_write {written : List (List ν × β)} (holds : tree.Holds written)
    (some : ∀ item ∈ written ++ items, item.1 ≠ []) :
    (PrefixFree ((written ++ items).map Prod.fst) →
      ∃ tree', items.foldlM FileTree.write tree = Option.some tree' ∧
        tree'.Holds (written ++ items)) ∧
    (¬ PrefixFree ((written ++ items).map Prod.fst) →
      items.foldlM FileTree.write tree = none) := by
  induction items generalizing tree written with
  | nil =>
      rw [List.append_nil]
      exact ⟨fun _ => ⟨tree, rfl, holds⟩, fun clash => absurd holds.free clash⟩
  | cons item items ih =>
      have shift : written ++ item :: items = written ++ [item] ++ items := by simp
      obtain ⟨goes, fails⟩ := holds.write (some item (by simp))
        fun other member => some other (List.mem_append_left _ member)
      rw [shift] at some ⊢
      rw [List.foldlM_cons]
      by_cases free : PrefixFree ((written ++ [item]).map Prod.fst)
      · obtain ⟨next, step, holds'⟩ := goes free
        rw [step, Option.bind_eq_bind, Option.bind_some]
        exact ih holds' some
      · rw [fails free]
        refine ⟨fun all => absurd ?_ free, fun _ => rfl⟩
        intro path member other member'
        rw [List.map_append] at all
        exact all path (List.mem_append_left _ member) other (List.mem_append_left _ member')

/-- **The files of prefix-free paths can be written**, and no others. -/
theorem writeAll_iff (some : ∀ item ∈ items, item.1 ≠ []) (distinct : (items.map Prod.fst).Nodup) :
    (∃ tree, writeAll items = Option.some tree ∧ tree.files.Perm items) ↔
      PrefixFree (items.map Prod.fst) := by
  have start : (({} : FileTree ν β)).Holds [] :=
    ⟨by simp, by simp, fun _ => rfl, by intro path member; cases member⟩
  have all : ∀ item ∈ [] ++ items, item.1 ≠ [] := some
  obtain ⟨goes, fails⟩ := start.foldlM_write all
  rw [List.nil_append] at goes fails
  constructor
  · rintro ⟨tree, written, -⟩
    by_contra clash
    rw [writeAll, fails clash] at written
    cases written
  · intro free
    obtain ⟨tree', fold, holds⟩ := goes free
    exact ⟨tree', fold, holds.contents distinct ▸ List.reverse_perm items⟩

end Writing

/-! ## Following a path -/

/-- What a component of a path does: `.`, `..` or a name. -/
inductive Move (ν : Type) where
  | stay
  | up
  | down (name : ν)

/-- The directory after one component; above the root there is nothing but the root. -/
def Move.from (directory : List ν) : Move ν → List ν
  | .stay => directory
  | .up => directory.dropLast
  | .down name => directory ++ [name]

/-- Where a list of moves leads. -/
def walk (directory : List ν) (moves : List (Move ν)) : List ν := moves.foldl Move.from directory

@[simp] theorem walk_nil (directory : List ν) : walk directory [] = directory := rfl

@[simp] theorem walk_stay (directory : List ν) (moves : List (Move ν)) :
    walk directory (.stay :: moves) = walk directory moves := rfl

theorem walk_append (directory : List ν) (moves others : List (Move ν)) :
    walk directory (moves ++ others) = walk (walk directory moves) others :=
  List.foldl_append

/-- **Names lead downwards.** -/
theorem walk_down (directory names : List ν) :
    walk directory (names.map Move.down) = directory ++ names := by
  induction names generalizing directory with
  | nil => simp
  | cons name names ih =>
      show walk (directory ++ [name]) (names.map Move.down) = _
      rw [ih, List.append_assoc, List.singleton_append]

end FileTree

end OpsComposer.Foundations
