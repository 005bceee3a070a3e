import Fex.Wire.Abi

/-!
# Public value types

The structs of `types.hpp` that cross the boundary between the dispatcher and a
filesystem. Names and values are byte strings; durations are signed 64-bit
nanosecond counts; an error is the `int` behind `std::errc`.
-/
namespace Fex

open Foundation

abbrev NodeId := UInt64
abbrev FileHandle := UInt64
abbrev Errc := Int32

def NodeId.invalid : NodeId := 0
def NodeId.root : NodeId := 1

namespace Errc

def ioError : Errc := 5
def invalidArgument : Errc := 22
def resultOutOfRange : Errc := 34
def functionNotSupported : Errc := 38
def operationNotSupported : Errc := 95

end Errc

structure Timespec where
  sec : Int64 := 0
  nsec : UInt32 := 0
  deriving DecidableEq

structure StatxOut where
  (mask blksize : UInt32 := 0)
  attributes : UInt64 := 0
  (nlink uid gid : UInt32 := 0)
  mode : UInt16 := 0
  (ino size blocks attributesMask : UInt64 := 0)
  (atime btime ctime mtime : Timespec := {})
  (rdevMajor rdevMinor devMajor devMinor : UInt32 := 0)
  deriving DecidableEq

structure SetStatxIn where
  mask : UInt32 := 0
  mode : UInt16 := 0
  (uid gid : UInt32 := 0)
  size : UInt64 := 0
  (atime ctime mtime : Timespec := {})
  deriving DecidableEq

structure StatfsOut where
  (blocks bfree bavail files ffree : UInt64 := 0)
  (bsize namelen frsize : UInt32 := 0)
  deriving DecidableEq

structure EntryOut where
  nodeid : NodeId := NodeId.invalid
  entryValid : Int64 := 0
  negative : Bool := false
  deriving DecidableEq

structure Context where
  (uid gid pid : UInt32 := 0)
  nodeid : NodeId := NodeId.invalid
  unique : UInt64 := 0
  deriving DecidableEq

structure MkobjxIn where
  stat : StatxOut := {}
  flags : UInt32 := 0
  name : Bytes := []
  linkTarget : Bytes := []
  deriving DecidableEq

structure OpenOut where
  fh : FileHandle := 0
  openFlags : UInt32 := 0
  deriving DecidableEq

/-- INIT negotiation: what the kernel announced and what the daemon answers. -/
structure InitInfo where
  (kernelMajor kernelMinor : UInt32 := 0)
  kernelFlags : UInt64 := 0
  maxReadahead : UInt32 := 0
  flags : UInt64 := 0
  maxWrite : UInt32 := 0x100000
  maxPages : UInt16 := 256
  timeGran : UInt32 := 1
  deriving DecidableEq

/-- `size_t` subtraction, which wraps. Sums of sizes stay below `2 ^ 64` because no
object is larger than `PTRDIFF_MAX`, so additions are plain. -/
def sizeSub (a b : Nat) : Nat := if b ≤ a then a - b else a + 2 ^ 64 - b

@[simp] theorem sizeSub_of_le {a b : Nat} (le : b ≤ a) : sizeSub a b = a - b := if_pos le

theorem sizeSub_of_lt {a b : Nat} (lt : a < b) : sizeSub a b = a + 2 ^ 64 - b :=
  if_neg (Nat.not_le.mpr lt)

end Fex
