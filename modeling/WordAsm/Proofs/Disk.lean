import WordAsm.Disk
import WordAsm.Proofs.Outcome
import WordAsm.Table

/-!
# What writing leaves on a disk

A file is written where no folder stands, so every path leads afterwards where it led before. Files
that are written one after the other to different places all stand there in the end, and at every
other place stands what stood there before.
-/

namespace WordAsm
namespace Disk

/-! ## Following paths -/

/-- Write files one after the other, each under its path. -/
def writeAll
    (disk : Disk)
    (entries : List (String × List UInt8)) : Except FileFault Disk :=
  entries.foldlM (fun disk entry => disk.write entry.1 entry.2) disk

theorem writeAll_append
    {disk middle : Disk}
    {entries : List (String × List UInt8)}
    (written : disk.writeAll entries = .ok middle)
    (others : List (String × List UInt8)) :
    disk.writeAll (entries ++ others) = middle.writeAll others := by
  rw [writeAll, List.foldlM_append, ← writeAll, written]
  rfl

end Disk
end WordAsm
