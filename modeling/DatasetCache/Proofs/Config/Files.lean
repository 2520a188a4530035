import DatasetCache.Config.Files
import DatasetCache.Proofs.Table

/-!
# Files that read back

Writing a file changes what is found at its place and no way through the directories, so
the path leads to the same place afterwards and the bytes written are read from it.  Over
any file system of which that is true, a text is read back as it was written.
-/

namespace DatasetCache

namespace FileTree

/-! ## Bytes of a text -/

theorem toList_loop (bytes : ByteArray) (i : Nat) (read : List UInt8) :
    ByteArray.toList.loop bytes i read = read.reverse ++ bytes.data.toList.drop i := by
  induction i, read using ByteArray.toList.loop.induct bytes with
  | case1 i read inside ih =>
      have size : i < bytes.data.toList.length := by simpa using inside
      have next : bytes.get! i = bytes.data.toList[i] := getElem!_pos bytes.data i size
      rw [ByteArray.toList.loop, if_pos inside, ih, List.drop_eq_getElem_cons size, next]
      simp
  | case2 i read beyond =>
      have none : bytes.data.toList.drop i = [] := by
        simpa using Nat.le_of_not_lt beyond
      rw [ByteArray.toList.loop, if_neg beyond, none, List.append_nil]

theorem fromUTF8?_bytesOf (text : String) :
    String.fromUTF8? ⟨(bytesOf text).toArray⟩ = some text := by
  have same : (⟨(bytesOf text).toArray⟩ : ByteArray) = text.toUTF8 := by
    rw [bytesOf, ByteArray.toList, toList_loop]
    simp
  rw [same]
  exact dif_pos text.isValidUTF8

/-! ## Writing a file -/

section Write

variable {tree : FileTree} {place : List String} (free : tree.isDirectory place = false)
  (bytes : List UInt8)

include free

theorem isDirectory_put (other : List String) :
    (tree.put place (.file bytes)).isDirectory other = tree.isDirectory other := by
  rw [isDirectory, isDirectory, put, Table.get?_insert]
  by_cases same : other = place
  · subst same
    obtain ⟨below, file⟩ := Bool.or_eq_false_iff.1 free
    simp [below, file]
  · rw [if_neg same]

theorem walk?_put (start : List String) (steps : List (List Char)) :
    (tree.put place (.file bytes)).walk? start steps = tree.walk? start steps := by
  induction steps generalizing start with
  | nil => rfl
  | cons step steps ih => simp only [walk?, ih, isDirectory_put free]

theorem locate?_put (path : String) :
    (tree.put place (.file bytes)).locate? path = tree.locate? path := by
  have sameStart : (tree.put place (.file bytes)).start path = tree.start path := rfl
  simp only [locate?, sameStart, walk?_put free]

end Write

theorem write?_eq_some_iff {tree after : FileTree} {path : String} {bytes : List UInt8} :
    tree.write? path bytes = some after ↔ ∃ place, tree.locate? path = some place ∧
      tree.isDirectory place = false ∧ after = tree.put place (.file bytes) := by
  cases located : tree.locate? path with
  | none => simp [write?, located]
  | some place =>
      rw [write?, located]
      cases free : tree.isDirectory place <;> simp [free, @eq_comm _ after]

theorem system_returns : system.Returns := by
  intro tree path bytes after written
  obtain ⟨place, located, free, rfl⟩ := write?_eq_some_iff.1 written
  have found : (tree.put place (.file bytes)).nodes.get? place = some (.file bytes) := by
    rw [put, Table.get?_insert, if_pos rfl]
  simp [system, read?, locate?_put free, located, found]

end FileTree

theorem FileSystem.text?_of_write {Path Disk : Type} {files : FileSystem Path Disk}
    (returns : files.Returns) {disk after : Disk} {path : Path} {text : String}
    (written : files.write disk path (FileTree.bytesOf text) = some after) :
    files.text? after path = some text := by
  rw [text?, returns _ _ _ _ written]
  exact FileTree.fromUTF8?_bytesOf text

end DatasetCache
