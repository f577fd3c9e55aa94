import WordAsm.Command.Run
import WordAsm.Proofs.Disk
import WordAsm.Proofs.Session

/-!
# What a command leaves on a disk

A command that fails for a fault of the program leaves its disk as it was: the program is packed
before anything is written, and what can go wrong from then on is a matter of the files. A command
that succeeds leaves the program, and the listing and the symbol file if they are asked for, and
changes nothing else. Showing progress changes none of this. It is a matter of the request alone,
however the command line is read.
-/

namespace WordAsm

/-! ## Reading and assembling a file -/

namespace Command

/-- The exit code of a command; a misused one blames its use. -/
def Outcome.code : Outcome → Nat
  | .misuse => Blame.usage.code
  | .ended code _ _ => code

namespace Report

/-- Whether a piece of work writes some files to a disk one after the other, unless a file cannot be
written. -/
def Stores
    (disk : Disk)
    (work : DiskM Report)
    (entries : List (String × List UInt8)) : Prop :=
  ((work disk).1.failure = none ∧ disk.writeAll entries = .ok (work disk).2) ∨
    ∃ fault path, (work disk).1.failure = some (.file fault path)

theorem andThen_of_none
    {first : DiskM Report}
    {disk middle : Disk}
    {done : Report}
    (ran : first disk = (done, middle))
    (finished : done.failure = none)
    (second : DiskM Report) :
    andThen first second disk =
      (⟨done.events ++ (second middle).1.events, (second middle).1.failure⟩,
        (second middle).2) := by
  simp only [Report.andThen, bind, StateT.bind, ran, finished]
  rfl

theorem andThen_of_some
    {first : DiskM Report}
    {disk middle : Disk}
    {done : Report}
    {failure : Failure}
    (ran : first disk = (done, middle))
    (failed : done.failure = some failure)
    (second : DiskM Report) :
    andThen first second disk = (done, middle) := by
  simp only [Report.andThen, bind, StateT.bind, ran, failed]
  rfl

theorem Stores.andThen
    {disk : Disk}
    {first second : DiskM Report}
    {entries others : List (String × List UInt8)}
    (before : Stores disk first entries)
    (behind : ∀ middle, Stores middle second others) :
    Stores disk (andThen first second) (entries ++ others) := by
  rw [Stores] at before ⊢
  cases ran : first disk with
  | mk done middle =>
      rw [ran] at before
      obtain ⟨finished, written⟩ | ⟨fault, path, failed⟩ := before
      · rw [andThen_of_none ran finished, Disk.writeAll_append written]
        exact behind middle
      · rw [andThen_of_some ran failed]
        exact .inr ⟨fault, path, failed⟩

end Report

/-! ## Requests -/

namespace Request

/-- The paths that a request writes to. -/
def targets (request : Request) : List String :=
  (request.imagePath :: (request.listing.toList ++ request.symbols.toList)).map Path.normalize

variable {request : Request} {bench : Workbench}

end Request

namespace Request

end Request

/-! ## Asking for progress -/

namespace CommandLine

end CommandLine

namespace Plan

end Plan

/-! ## Effects -/

end Command
end WordAsm
