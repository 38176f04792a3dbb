import ScriptHost.Files
import ScriptHost.Proofs.Text.Pieces

/-!
# Reading files

A file that stands in the working directory is read by its name.
-/

namespace ScriptHost.Files

/-- The file of a name in the working directory has a text in it. -/
structure Holds (files : Files) (name text : String) : Prop where
  noSlash : '/' ∉ name.toList
  isName : name ∉ ["", ".", ".."]
  directory : files.node? workingName = some .directory
  file : files.node? (workingName ++ [name]) = some (.file text.toUTF8)

theorem origin_of_not_mem {name : String} (h : '/' ∉ name.toList) :
    origin name = workingName := by
  rw [origin, if_neg]
  intro hslash
  obtain ⟨rest, hrest⟩ := String.startsWith_string_iff.1 hslash
  exact h (by simp [← hrest])

theorem splitOn_slash_of_not_mem {name : String} (h : '/' ∉ name.toList) :
    name.splitOn "/" = [name] := by
  have hsplit := Text.splitOn_ofList '/' name
  rwa [Text.splitOnChar_of_not_mem h, List.map_singleton, String.ofList_toList] at hsplit

/-- A name leads to what stands under it in the working directory. -/
theorem resolve_of_name {files : Files} {name : String} (noSlash : '/' ∉ name.toList)
    (isName : name ∉ ["", ".", ".."]) (directory : files.node? workingName = some .directory) :
    files.resolve name = .ok (workingName ++ [name]) := by
  obtain ⟨hempty, hdot, hdots⟩ : name ≠ "" ∧ name ≠ "." ∧ name ≠ ".." := by
    simpa [not_or] using isName
  rw [resolve, if_neg hempty, splitOn_slash_of_not_mem noSlash, origin_of_not_mem noSlash,
    follow, directory]
  dsimp only
  rw [if_neg (not_or.2 ⟨hempty, hdot⟩), if_neg hdots]
  rfl

theorem fromUTF8?_toUTF8 (text : String) : String.fromUTF8? text.toUTF8 = some text := by
  rw [String.fromUTF8?, String.toUTF8_eq_toByteArray, dif_pos text.isValidUTF8]
  rfl

theorem Holds.readText {files : Files} {name text : String} (h : files.Holds name text) :
    files.readText name = .ok text := by
  have hresolve := resolve_of_name h.noSlash h.isName h.directory
  have hread : files.read name = .ok text.toUTF8 := by
    simp only [read, hresolve, bind, Except.bind, h.file]
  simp only [Files.readText, hread, bind, Except.bind, fromUTF8?_toUTF8]

end ScriptHost.Files
