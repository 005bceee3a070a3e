import Mathlib.Data.List.TakeWhile
import Mathlib.Tactic.Ring

/-!
# Byte strings and flat memory

Little-endian numbers, NUL-terminated strings, and `Memory`, a total map from
addresses to bytes whose range reads and writes obey the usual laws for equal,
adjacent and disjoint ranges.
-/
namespace Fex.Foundation

abbrev Bytes := List UInt8

/-! ### Little-endian numbers -/

def leBytes : Nat → Nat → Bytes
  | 0, _ => []
  | width + 1, n => UInt8.ofNat n :: leBytes width (n / 256)

def leNat : Bytes → Nat
  | [] => 0
  | b :: rest => b.toNat + 256 * leNat rest

@[simp] theorem length_leBytes (width n : Nat) : (leBytes width n).length = width := by
  induction width generalizing n with
  | zero => rfl
  | succ width ih => simp [leBytes, ih]

theorem leNat_lt (bs : Bytes) : leNat bs < 256 ^ bs.length := by
  induction bs with
  | nil => simp [leNat]
  | cons b rest ih =>
    have byte := b.toNat_lt
    simp only [leNat, List.length_cons, Nat.pow_succ]
    omega

theorem leNat_leBytes (width n : Nat) : leNat (leBytes width n) = n % 256 ^ width := by
  induction width generalizing n with
  | zero => simp [leBytes, leNat, Nat.mod_one]
  | succ width ih =>
    have byte : (UInt8.ofNat n).toNat = n % 256 := by simp
    rw [leBytes, leNat, ih, byte, Nat.pow_succ, Nat.mul_comm (256 ^ width), Nat.mod_mul]

theorem leBytes_leNat (bs : Bytes) : leBytes bs.length (leNat bs) = bs := by
  induction bs with
  | nil => rfl
  | cons b rest ih =>
    have byte := b.toNat_lt
    have low : UInt8.ofNat (b.toNat + 256 * leNat rest) = b := by
      apply UInt8.toNat_inj.mp
      simp only [UInt8.toNat_ofNat']
      omega
    have high : (b.toNat + 256 * leNat rest) / 256 = leNat rest := by omega
    rw [List.length_cons, leNat, leBytes, low, high, ih]

/-! ### NUL-terminated strings -/

/-- The part of a byte string before its first NUL. -/
def beforeNul (bs : Bytes) : Bytes := bs.takeWhile (· ≠ 0)

theorem length_beforeNul_le (bs : Bytes) : (beforeNul bs).length ≤ bs.length :=
  (List.takeWhile_sublist _).length_le

theorem beforeNul_eq_take (bs : Bytes) : beforeNul bs = bs.take (beforeNul bs).length :=
  (List.prefix_iff_eq_take.mp (List.takeWhile_prefix _))

theorem zero_notMem_beforeNul (bs : Bytes) : (0 : UInt8) ∉ beforeNul bs := by
  intro member
  simpa using List.mem_takeWhile_imp member

/-- A string whose scan stops short of the end is followed by its NUL. -/
theorem beforeNul_terminated (bs : Bytes) (short : (beforeNul bs).length ≠ bs.length) :
    ∃ rest, bs = beforeNul bs ++ 0 :: rest := by
  induction bs with
  | nil => exact absurd rfl short
  | cons b bs ih =>
    by_cases nul : b = 0
    · exact ⟨bs, by simp [beforeNul, nul]⟩
    · have unfolded : beforeNul (b :: bs) = b :: beforeNul bs := by simp [beforeNul, nul]
      rw [unfolded] at short ⊢
      obtain ⟨rest, split⟩ := ih (by simpa using short)
      exact ⟨rest, by rw [List.cons_append, ← split]⟩

theorem length_beforeNul_ne {bs : Bytes} (nul : (0 : UInt8) ∈ bs) :
    (beforeNul bs).length ≠ bs.length := by
  intro whole
  have all := beforeNul_eq_take bs
  rw [whole, List.take_length] at all
  rw [← all] at nul
  exact zero_notMem_beforeNul bs nul

theorem beforeNul_append (name rest : Bytes) (free : (0 : UInt8) ∉ name) :
    beforeNul (name ++ 0 :: rest) = name := by
  induction name with
  | nil => simp [beforeNul]
  | cons b name ih =>
    have nonzero : b ≠ 0 := fun zero => free (by simp [zero])
    have tail := ih (fun member => free (List.mem_cons_of_mem _ member))
    simpa [beforeNul, nonzero] using tail

/-- What stands before the first NUL, when there is one, is the terminated string the
bytes begin with. -/
theorem beforeNul_eq_iff (bs name : Bytes) :
    (beforeNul bs).length ≠ bs.length ∧ beforeNul bs = name ↔
      (0 : UInt8) ∉ name ∧ name ++ [0] <+: bs := by
  constructor
  · rintro ⟨short, rfl⟩
    obtain ⟨rest, split⟩ := beforeNul_terminated bs short
    refine ⟨zero_notMem_beforeNul bs, rest, ?_⟩
    rw [List.append_assoc]
    exact split.symm
  · rintro ⟨free, rest, rfl⟩
    have found : beforeNul (name ++ [0] ++ rest) = name := by
      rw [List.append_assoc]
      exact beforeNul_append name rest free
    rw [found]
    simp

/-- A terminated string and what follows it, as a prefix. -/
theorem terminated_append_prefix_iff (name rest bs : Bytes) :
    name ++ [0] ++ rest <+: bs ↔ name ++ [0] <+: bs ∧ rest <+: bs.drop (name.length + 1) := by
  constructor
  · rintro ⟨tail, rfl⟩
    refine ⟨⟨rest ++ tail, by simp⟩, tail, ?_⟩
    rw [List.append_assoc, List.drop_left' (by simp)]
  · rintro ⟨⟨tail, rfl⟩, later⟩
    rw [List.drop_left' (by simp)] at later
    exact List.prefix_append_right_inj _ |>.mpr later

theorem take_eq_iff_prefix {bs : Bytes} {n : Nat} (fits : n ≤ bs.length) (data : Bytes) :
    bs.take n = data ↔ n = data.length ∧ data <+: bs := by
  constructor
  · rintro rfl
    exact ⟨(List.length_take_of_le fits).symm, List.take_prefix n bs⟩
  · rintro ⟨rfl, first⟩
    exact (List.prefix_iff_eq_take.mp first).symm

/-! ### Memory -/

abbrev Memory := Nat → UInt8

namespace Memory

def read (m : Memory) (addr : Nat) : Nat → Bytes
  | 0 => []
  | len + 1 => m addr :: read m (addr + 1) len

def write (m : Memory) (addr : Nat) (bs : Bytes) : Memory := fun a =>
  if addr ≤ a ∧ a < addr + bs.length then bs.getD (a - addr) 0 else m a

@[simp] theorem length_read (m : Memory) (addr len : Nat) : (m.read addr len).length = len := by
  induction len generalizing addr with
  | zero => rfl
  | succ len ih => simp [read, ih]

@[simp] theorem write_nil (m : Memory) (addr : Nat) : m.write addr [] = m := by
  funext a
  simp only [write, List.length_nil]
  rw [if_neg (by omega)]

theorem read_add (m : Memory) (addr a b : Nat) :
    m.read addr (a + b) = m.read addr a ++ m.read (addr + a) b := by
  induction a generalizing addr with
  | zero => simp [read]
  | succ a ih =>
    rw [Nat.succ_add, read, read, ih, List.cons_append, Nat.add_assoc, Nat.add_comm 1]

theorem getElem?_read (m : Memory) (addr len i : Nat) :
    (m.read addr len)[i]? = if i < len then some (m (addr + i)) else none := by
  induction len generalizing addr i with
  | zero => simp [read]
  | succ len ih =>
    cases i with
    | zero => simp [read]
    | succ i => simp [read, ih, Nat.add_assoc, Nat.add_comm 1]

theorem read_congr {m m' : Memory} {addr len : Nat}
    (same : ∀ a, addr ≤ a → a < addr + len → m a = m' a) : m.read addr len = m'.read addr len := by
  apply List.ext_getElem?
  intro i
  rw [getElem?_read, getElem?_read]
  split
  next inside => rw [same (addr + i) (by omega) (by omega)]
  · rfl

/-- A sub-range of a range is the corresponding slice of its bytes. -/
theorem read_slice (m : Memory) (addr len off n : Nat) (inside : off + n ≤ len) :
    m.read (addr + off) n = ((m.read addr len).drop off).take n := by
  have split : len = off + (n + (len - off - n)) := by omega
  rw [split, read_add, read_add]
  simp

theorem drop_read (m : Memory) (addr len off : Nat) (inside : off ≤ len) :
    (m.read addr len).drop off = m.read (addr + off) (len - off) := by
  rw [m.read_slice addr len off (len - off) (by omega), List.take_of_length_le]
  rw [List.length_drop, length_read]

theorem take_read (m : Memory) (addr len n : Nat) (inside : n ≤ len) :
    (m.read addr len).take n = m.read addr n := by
  have slice := m.read_slice addr len 0 n (by omega)
  simpa using slice.symm

/-- Bytes at the front of a range, as a range of their own. -/
theorem read_of_prefix {m : Memory} {addr len : Nat} {bs : Bytes} (front : bs <+: m.read addr len) :
    bs.length ≤ len ∧ m.read addr bs.length = bs := by
  have fits : bs.length ≤ len := by
    have shorter := front.length_le
    rwa [length_read] at shorter
  refine ⟨fits, ?_⟩
  rw [← take_read m addr len _ fits]
  exact (List.prefix_iff_eq_take.mp front).symm

theorem write_outside (m : Memory) (addr : Nat) (bs : Bytes) (a : Nat)
    (outside : a < addr ∨ addr + bs.length ≤ a) : m.write addr bs a = m a := by
  simp only [write]
  rw [if_neg (by omega)]

@[simp] theorem read_write_same (m : Memory) (addr : Nat) (bs : Bytes) :
    (m.write addr bs).read addr bs.length = bs := by
  apply List.ext_getElem?
  intro i
  rw [getElem?_read]
  split
  next inside => simp [write, inside]
  next beyond => simp [Nat.le_of_not_lt beyond]

theorem read_write_disjoint (m : Memory) (addr : Nat) (bs : Bytes) (start len : Nat)
    (apart : start + len ≤ addr ∨ addr + bs.length ≤ start) :
    (m.write addr bs).read start len = m.read start len :=
  read_congr fun a _ _ => m.write_outside addr bs a (by omega)

/-- A write inside a range splices its bytes into the range. -/
theorem read_write_inside (m : Memory) (addr : Nat) (bs : Bytes) (start len : Nat)
    (lower : start ≤ addr) (upper : addr + bs.length ≤ start + len) :
    (m.write addr bs).read start len = m.read start (addr - start) ++ bs ++
      m.read (addr + bs.length) (start + len - (addr + bs.length)) := by
  have split : len = (addr - start) + (bs.length + (start + len - (addr + bs.length))) := by omega
  have here : start + (addr - start) = addr := by omega
  conv_lhs => rw [split]
  rw [read_add, read_add, here, read_write_same, read_write_disjoint _ _ _ _ _ (by omega),
    read_write_disjoint _ _ _ _ _ (by omega), List.append_assoc]

/-- Memories that agree before and behind a write agree on all of it afterwards. -/
theorem read_extend {m m' : Memory} {start n k len : Nat} (bs : Bytes)
    (before : m.read start n = m'.read start n)
    (after : m.read (start + n + bs.length) k = m'.read (start + n + bs.length) k)
    (fits : len ≤ n + (bs.length + k)) :
    (m.write (start + n) bs).read start len = (m'.write (start + n) bs).read start len := by
  have whole : (m.write (start + n) bs).read start (n + (bs.length + k)) =
      (m'.write (start + n) bs).read start (n + (bs.length + k)) := by
    have first : start + n - start = n := by omega
    have last : start + (n + (bs.length + k)) - (start + n + bs.length) = k := by omega
    rw [read_write_inside _ _ _ _ _ (by omega) (by omega),
      read_write_inside _ _ _ _ _ (by omega) (by omega), first, last, before, after]
  rw [← take_read _ _ _ _ fits, whole, take_read _ _ _ _ fits]

end Memory

end Fex.Foundation
