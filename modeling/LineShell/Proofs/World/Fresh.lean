import Mathlib
import LineShell.World.Fresh

/-!
# What there is in the world to begin with

The system's programs under the paths that lead to them, a directory or two, and what is missing.
The tree is planted from a list, so that all of this is computed, here and nowhere else.
-/

namespace LineShell.World

open Files (FileTree)

-- ---------------------------------------------------------------------------
-- Programs
-- ---------------------------------------------------------------------------

theorem fresh_isExecutable_true : fresh.isExecutable "/bin/true" := by cbv

theorem fresh_isExecutable_false : fresh.isExecutable "/bin/false" := by cbv

theorem fresh_isExecutable_below : fresh.isExecutable "bin/true" := by cbv

theorem fresh_isExecutable_here : fresh.isExecutable "./bin/true" := by cbv

-- ---------------------------------------------------------------------------
-- Directories and what they lack
-- ---------------------------------------------------------------------------

theorem fresh_readText_etc :
    fresh.readText (bytesOf "/etc") = .error (.refused (.system .isDirectory)) := by cbv

theorem fresh_isFile_pshellrc : fresh.isFile (bytesOf ".pshellrc") = false := by cbv

theorem fresh_find?_usr :
    (fresh.files.directory? FileTree.root).bind (·.find? (bytesOf "usr")) = some 1 := by cbv

theorem fresh_directory?_usr : (fresh.files.directory? 1).isSome := by cbv

theorem fresh_locate_etc_inUsr :
    ({ fresh with cwd := 1 } : World).locate "etc" = .error (.system .noEntry) := by cbv

def plantedTree : FileTree :=
  ((FileTree.empty dawn).plantAll FileTree.root dawn systemPlants).toOption.getD
    (FileTree.empty dawn)

theorem plantedTree_lacks_null : ((plantedTree.makeDirectories FileTree.root dawn
    [bytesOf "dev"]).toOption.any fun grown =>
      (grown.2.directory? grown.1).any fun dir => (dir.find? (bytesOf "null")).isNone) = true := by
  cbv

end LineShell.World
