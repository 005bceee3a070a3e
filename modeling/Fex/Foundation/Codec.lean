import Fex.Foundation.Bytes

/-!
# Fixed-size codecs

A `Codec α` is a bijection between `α` and the byte strings of length `size`, with
its laws as fields. Numbers are little-endian; records are products transported
along their constructor.
-/
namespace Fex.Foundation

/-- Exactly `n` uninterpreted bytes: reserved words, padding and spare arrays. -/
abbrev Blob (n : Nat) := { bs : Bytes // bs.length = n }

def Blob.zero (n : Nat) : Blob n := ⟨List.replicate n 0, List.length_replicate⟩

def Blob.of (bs : Bytes) : Blob bs.length := ⟨bs, rfl⟩

structure Codec (α : Type) where
  size : Nat
  enc : α → Bytes
  dec : Bytes → α
  length_enc : ∀ a, (enc a).length = size
  dec_enc : ∀ a, dec (enc a) = a
  enc_dec : ∀ bs, bs.length = size → enc (dec bs) = bs

namespace Codec

variable {α β : Type}

/-- A type in bijection with the numbers below `256 ^ width`. -/
def number (width : Nat) (toNat : α → Nat) (ofNat : Nat → α)
    (bounded : ∀ a, toNat a < 256 ^ width) (ofNat_toNat : ∀ a, ofNat (toNat a) = a)
    (toNat_ofNat : ∀ n, n < 256 ^ width → toNat (ofNat n) = n) : Codec α where
  size := width
  enc a := leBytes width (toNat a)
  dec bs := ofNat (leNat bs)
  length_enc a := length_leBytes width _
  dec_enc a := by rw [leNat_leBytes, Nat.mod_eq_of_lt (bounded a), ofNat_toNat]
  enc_dec bs length := by
    rw [toNat_ofNat _ (length ▸ leNat_lt bs), ← length, leBytes_leNat]

def u8 : Codec UInt8 :=
  number 1 UInt8.toNat UInt8.ofNat (fun a => a.toNat_lt) (fun _ => UInt8.ofNat_toNat)
    (fun _ below => UInt8.toNat_ofNat_of_lt' below)

def u16 : Codec UInt16 :=
  number 2 UInt16.toNat UInt16.ofNat (fun a => a.toNat_lt) (fun _ => UInt16.ofNat_toNat)
    (fun _ below => UInt16.toNat_ofNat_of_lt' below)

def u32 : Codec UInt32 :=
  number 4 UInt32.toNat UInt32.ofNat (fun a => a.toNat_lt) (fun _ => UInt32.ofNat_toNat)
    (fun _ below => UInt32.toNat_ofNat_of_lt' below)

def u64 : Codec UInt64 :=
  number 8 UInt64.toNat UInt64.ofNat (fun a => a.toNat_lt) (fun _ => UInt64.ofNat_toNat)
    (fun _ below => UInt64.toNat_ofNat_of_lt' below)

def raw (n : Nat) : Codec (Blob n) where
  size := n
  enc b := b.1
  dec bs := if length : bs.length = n then ⟨bs, length⟩ else Blob.zero n
  length_enc b := b.2
  dec_enc b := by simp [b.2]
  enc_dec bs length := by simp [length]

def prod (a : Codec α) (b : Codec β) : Codec (α × β) where
  size := a.size + b.size
  enc p := a.enc p.1 ++ b.enc p.2
  dec bs := (a.dec (bs.take a.size), b.dec (bs.drop a.size))
  length_enc p := by simp [a.length_enc, b.length_enc]
  dec_enc p := by
    have first := a.length_enc p.1
    rw [List.take_left' first, List.drop_left' first, a.dec_enc, b.dec_enc]
  enc_dec bs length := by
    rw [a.enc_dec _ (by rw [List.length_take]; omega),
      b.enc_dec _ (by rw [List.length_drop]; omega), List.take_append_drop]

/-- Transport along a bijection, in practice a record's constructor and its fields. -/
def via (c : Codec β) (make : β → α) (fields : α → β) (make_fields : ∀ a, make (fields a) = a)
    (fields_make : ∀ b, fields (make b) = b) : Codec α where
  size := c.size
  enc a := c.enc (fields a)
  dec bs := make (c.dec bs)
  length_enc a := c.length_enc _
  dec_enc a := by rw [c.dec_enc, make_fields]
  enc_dec bs length := by rw [fields_make, c.enc_dec bs length]

def i32 : Codec Int32 :=
  u32.via UInt32.toInt32 Int32.toUInt32 (fun _ => Int32.toInt32_toUInt32 _)
    (fun _ => UInt32.toUInt32_toInt32 _)

def i64 : Codec Int64 :=
  u64.via UInt64.toInt64 Int64.toUInt64 (fun _ => Int64.toInt64_toUInt64 _)
    (fun _ => UInt64.toUInt64_toInt64 _)

attribute [simp] length_enc dec_enc

/-- Decoding reads only the encoded prefix. -/
theorem dec_take_enc (c : Codec α) (a : α) (rest : Bytes) :
    c.dec ((c.enc a ++ rest).take c.size) = a := by
  rw [List.take_left' (c.length_enc a), c.dec_enc]

/-- An encoded value and what follows it, as a prefix. -/
theorem enc_append_prefix_iff (c : Codec α) (a : α) (rest bs : Bytes) :
    c.enc a ++ rest <+: bs ↔
      c.size ≤ bs.length ∧ c.dec (bs.take c.size) = a ∧ rest <+: bs.drop c.size := by
  constructor
  · rintro ⟨tail, rfl⟩
    rw [List.append_assoc]
    refine ⟨by simp, c.dec_take_enc a _, tail, ?_⟩
    rw [List.drop_left' (c.length_enc a)]
  · rintro ⟨fits, rfl, tail, after⟩
    refine ⟨tail, ?_⟩
    rw [c.enc_dec _ (List.length_take_of_le fits), List.append_assoc, after,
      List.take_append_drop]

theorem dec_take_of_prefix (c : Codec α) {a : α} {bs : Bytes} (encoded : c.enc a <+: bs) :
    c.dec (bs.take c.size) = a := by
  obtain ⟨tail, rfl⟩ := encoded
  exact c.dec_take_enc a tail

end Codec

end Fex.Foundation
