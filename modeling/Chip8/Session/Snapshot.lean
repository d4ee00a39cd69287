import Chip8.Bitmap.Color
import Chip8.Log

/-!
# Snapshots

The copy of the screen that a session shows to the outside, as packed colours. `bytes_update` says
that an update leaves exactly the packed screen, whatever the snapshot held before, and that its
warning is never written.
-/

namespace Chip8

/-- The most recent screen of a session as packed colours; without any byte before there is one. -/
structure Snapshot where
  bytes : Array UInt8
  deriving DecidableEq

namespace Snapshot

/-- The snapshot before there is a screen. -/
def empty : Snapshot := ⟨#[]⟩

/-- Brings a buffer to the given size: cuts its end off, or fills it up with zeros. -/
def resize (bytes : Array UInt8) (size : Nat) : Array UInt8 :=
  bytes.extract 0 size ++ Array.replicate (size - bytes.size) 0

/-- Takes a screen over into the snapshot. Should the screen not fit, this is logged. -/
def update (s : Snapshot) (screen : Bitmap) (color : Color) : Snapshot × List LogEntry :=
  let buffer := resize s.bytes screen.packedSize
  match screen.packInto color buffer with
  | .ok bytes => (⟨bytes⟩, [])
  | .error e => (⟨buffer⟩, [.snapshotRefused e])

@[simp]
theorem size_resize (bytes : Array UInt8) (size : Nat) : (resize bytes size).size = size := by
  simp only [resize, Array.size_append, Array.size_extract, Array.size_replicate]
  omega

/-- **An update leaves the packed screen and logs nothing.** -/
theorem bytes_update (s : Snapshot) (screen : Bitmap) (color : Color) :
    s.update screen color = (⟨screen.packed color⟩, []) := by
  simp [update, Bitmap.packInto]

end Snapshot

end Chip8
