import CoreTally.Files
import CoreTally.Proofs.KeyedLists

/-
  The order in which directories list their entries. Two trees
  that differ in nothing else hold the same texts at the same
  paths, and their directories the same names.

  Key definitions include:
    * `Files.Alike`
    * `Files.Rearranged`
    * `FileTree.Shuffled`

  Key theorems include:
    * `FileTree.Shuffled.permuted`
    * `FileTree.Shuffled.follow`
    * `Files.rearranged_of_shuffled`
-/

namespace CoreTally

------------------------------------------------------------
-- Rearranged Files
------------------------------------------------------------

/- Two outcomes fail for one cause, or their values are related. -/
inductive Files.Alike
    {α β : Type}
    (related : α → β → Prop) :
    Except FileError α → Except FileError β → Prop
| error
    (cause : FileError) :
    Alike related (.error cause) (.error cause)
| ok
    {value : α}
    {other : β}
    (hRelated : related value other) :
    Alike related (.ok value) (.ok other)

/- The same files, with directories that list them in any order. -/
structure Files.Rearranged (files other : Files) : Prop where
  readText : ∀ path, other.readText path = files.readText path
  list :
    ∀ path, Alike List.Perm (files.list path) (other.list path)

section Listing

variable {files other : Files}
variable (hFiles : files.Rearranged other)
variable {path : String}
include hFiles

/- A directory that can not be listed fails for the same cause. -/
theorem Files.Rearranged.list_error
    {cause : FileError}
    (hList : files.list path = .error cause) :
    other.list path = .error cause := by
  have hAlike := hFiles.list path
  rw [hList] at hAlike
  generalize other.list path = others at hAlike
  cases hAlike
  rfl

/- A directory that can be listed has the same names. -/
theorem Files.Rearranged.exists_perm
    {names : List String}
    (hList : files.list path = .ok names) :
    ∃ others, other.list path = .ok others ∧ names.Perm others := by
  have hAlike := hFiles.list path
  rw [hList] at hAlike
  generalize other.list path = others at hAlike
  cases hAlike with
  | ok hPerm => exact ⟨_, rfl, hPerm⟩

end Listing

------------------------------------------------------------
-- Shuffled Trees
------------------------------------------------------------

namespace FileTree

/-
  The same tree, with the entries of every directory in any
  order. A name that is there twice stands for its first entry.
-/
inductive Shuffled : FileTree → FileTree → Prop
| text
    (content : String) :
    Shuffled (.text content) (.text content)
| binary :
    Shuffled .binary .binary
| directory
    {entries others : List (String × FileTree)}
    (hNames :
      (entries.map Prod.fst).Perm (others.map Prod.fst))
    (hEntries :
      ∀ name child other,
        entries.lookup name = some child →
          others.lookup name = some other →
            Shuffled child other) :
    Shuffled (.directory entries) (.directory others)

/- A tree may be left as it is. -/
theorem Shuffled.refl :
    ∀ tree : FileTree, tree.Shuffled tree
| .text content => .text content
| .binary => .binary
| .directory entries => by
    apply Shuffled.directory (.refl _)
    intro name child other hChild hOther
    rw [hChild] at hOther
    cases Option.some.inj hOther
    have hMem := KeyedLists.mem_of_lookup hChild
    have hSize := List.sizeOf_lt_of_mem hMem
    exact Shuffled.refl child
decreasing_by
  simp only [Prod.mk.sizeOf_spec, directory.sizeOf_spec] at *
  omega

/- The entries of a directory may be listed in any order. -/
theorem Shuffled.permuted
    {entries others : List (String × FileTree)}
    (hPerm : entries.Perm others)
    (hNodup : (entries.map Prod.fst).Nodup) :
    Shuffled (.directory entries) (.directory others) := by
  apply Shuffled.directory (hPerm.map _)
  intro name child other hChild hOther
  have hMem := KeyedLists.mem_of_lookup hChild
  have hOther := hPerm.mem_iff.mpr (KeyedLists.mem_of_lookup hOther)
  have hSame := List.inj_on_of_nodup_map hNodup hMem hOther rfl
  cases congrArg Prod.snd hSame
  exact .refl _

/- An entry of a directory may be shuffled. -/
theorem Shuffled.entry
    {child other : FileTree}
    (hChild : child.Shuffled other)
    (name : String)
    (entries : List (String × FileTree)) :
    Shuffled (.directory ((name, child) :: entries))
      (.directory ((name, other) :: entries)) := by
  refine Shuffled.directory ?_ ?_
  · exact .refl _
  · intro key found found' hFound hFound'
    rw [List.lookup_cons] at hFound hFound'
    cases hKey : key == name with
    | true =>
        rw [hKey] at hFound hFound'
        cases Option.some.inj hFound
        cases Option.some.inj hFound'
        exact hChild
    | false =>
        rw [hKey] at hFound hFound'
        rw [hFound] at hFound'
        cases Option.some.inj hFound'
        exact .refl _

/- Shuffled trees agree on where a path leads. -/
theorem Shuffled.follow
    {here there : FileTree}
    (hHere : here.Shuffled there)
    {above others : List FileTree}
    (hAbove : List.Forall₂ Shuffled above others)
    (names : List String) :
    Files.Alike Shuffled
      (FileTree.follow names above here)
      (FileTree.follow names others there) := by
  induction names generalizing here there above others with
  | nil => exact .ok hHere
  | cons name names ih =>
      cases hHere with
      | text content => exact .error _
      | binary => exact .error _
      | directory hNames hEntries =>
          have hHere := Shuffled.directory hNames hEntries
          simp only [FileTree.follow]
          split
          · exact ih hHere hAbove
          split
          · cases hAbove with
            | nil => exact ih hHere .nil
            | cons hParent hAbove => exact ih hParent hAbove
          split
          · exact .error _
          · rename_i entries others' _ _ _
            have hMissing :
                entries.lookup name = none ↔
                  others'.lookup name = none := by
              rw [KeyedLists.lookup_eq_none_iff,
                KeyedLists.lookup_eq_none_iff,
                hNames.mem_iff]
            rcases hChild : entries.lookup name with _ | child
            · rw [hMissing.mp hChild]
              exact .error _
            · rcases hOther : others'.lookup name with _ | other
              · rw [hMissing.mpr hOther] at hChild
                contradiction
              · exact ih (hEntries name child other hChild hOther)
                  (.cons hHere hAbove)

end FileTree

namespace Files

variable {files other : Files}

theorem find_alike
    (hRoot : files.root.Shuffled other.root)
    (hWorking : files.working.Shuffled other.working)
    (path : String) :
    Alike FileTree.Shuffled (files.find path) (other.find path) := by
  rw [find, find]
  split
  · exact .error _
  split
  · exact .error _
  split
  · exact .error _
  split
  · exact hRoot.follow .nil _
  · exact hWorking.follow .nil _

/- Shuffled trees are rearranged files. -/
theorem rearranged_of_shuffled
    (hRoot : files.root.Shuffled other.root)
    (hWorking : files.working.Shuffled other.working) :
    files.Rearranged other := by
  constructor
  · intro path
    have hFind := find_alike hRoot hWorking path
    rw [readText, readText]
    generalize files.find path = here, other.find path = there
      at hFind ⊢
    cases hFind with
    | error cause => rfl
    | ok hTree => cases hTree <;> rfl
  · intro path
    have hFind := find_alike hRoot hWorking path
    rw [list, list]
    generalize files.find path = here, other.find path = there
      at hFind ⊢
    cases hFind with
    | error cause => exact .error cause
    | ok hTree =>
        cases hTree with
        | text content => exact .error _
        | binary => exact .error _
        | directory hNames _ => exact .ok hNames

end Files

end CoreTally
