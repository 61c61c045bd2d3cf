import FtyRest.Lib.BigEndian

/-!
# Gzip members

The check sum of a gzip member, the member that is made of a header without options, and how one
is read.  The compressed data in it is read by a function that is given.
-/

namespace Gzip

/-! ## The check sum -/

def crcBit (crc : UInt32) : UInt32 :=
  if crc &&& 1 = 1 then (crc >>> 1) ^^^ 0xEDB88320 else crc >>> 1

def crcByte (crc : UInt32) (b : UInt8) : UInt32 := Nat.iterate crcBit 8 (crc ^^^ b.toUInt32)

/-- The `crc32` of zlib, as it is documented: the check sum of `bytes` behind the bytes that have
the sum `crc`; it is `0` of no bytes. -/
def crc32 (crc : UInt32) (bytes : List UInt8) : UInt32 := ~~~ bytes.foldl crcByte (~~~ crc)

example : crc32 0 [0x31, 0x32, 0x33, 0x34, 0x35, 0x36, 0x37, 0x38, 0x39] = 0xCBF43926 := by
  decide +kernel

@[simp]
theorem crc32_nil (crc : UInt32) : crc32 crc [] = crc := by simp [crc32]

theorem crc32_append (crc : UInt32) (bytes more : List UInt8) :
    crc32 crc (bytes ++ more) = crc32 (crc32 crc bytes) more := by
  simp [crc32]

/-! ## Members -/

/-- The four bytes of a number, the lowest one first. -/
def le32 (u : UInt32) : List UInt8 := BigEndian.toLE 4 u.toNat

def readLe32 : List UInt8 → Option (UInt32 × List UInt8)
  | a :: b :: c :: d :: rest => some (UInt32.ofNat (BigEndian.ofLE [a, b, c, d]), rest)
  | _ => none

theorem readLe32_append (u : UInt32) (rest : List UInt8) :
    readLe32 (le32 u ++ rest) = some (u, rest) := by
  have hlt : u.toNat < 256 ^ 4 := u.toNat_lt
  have hread := BigEndian.ofLE_toLE 4 u.toNat
  rw [Nat.mod_eq_of_lt hlt] at hread
  show some (UInt32.ofNat (BigEndian.ofLE (BigEndian.toLE 4 u.toNat)), rest) = _
  rw [hread, UInt32.ofNat_toNat]

/-- The member with these flags, around the compressed data. -/
def member (mtime : UInt32) (xfl os : UInt8) (compressed data : List UInt8) : List UInt8 :=
  [0x1f, 0x8b, 0x08, 0x00] ++ le32 mtime ++ [xfl, os] ++ compressed ++
    le32 (crc32 0 data) ++ le32 (UInt32.ofNat data.length)

/-- A file of one member without options is read: the sum and the size must be right. -/
def gunzip (inflate : List UInt8 → Option (List UInt8 × List UInt8)) (bytes : List UInt8) :
    Option (List UInt8) :=
  match bytes with
  | 0x1f :: 0x8b :: 0x08 :: 0x00 :: _ :: _ :: _ :: _ :: _ :: _ :: body => do
      let (data, rest) ← inflate body
      let (crc, rest) ← readLe32 rest
      let (isize, rest) ← readLe32 rest
      if crc = crc32 0 data ∧ isize = UInt32.ofNat data.length ∧ rest = [] then some data else none
  | _ => none

theorem gunzip_member {inflate : List UInt8 → Option (List UInt8 × List UInt8)}
    {mtime : UInt32} {xfl os : UInt8} {compressed data : List UInt8}
    (h : ∀ rest, inflate (compressed ++ rest) = some (data, rest)) :
    gunzip inflate (member mtime xfl os compressed data) = some data := by
  have hbody := h (le32 (crc32 0 data) ++ (le32 (UInt32.ofNat data.length) ++ []))
  have hbytes : member mtime xfl os compressed data =
      0x1f :: 0x8b :: 0x08 :: 0x00 :: (le32 mtime ++ xfl :: os ::
        (compressed ++ (le32 (crc32 0 data) ++ (le32 (UInt32.ofNat data.length) ++ [])))) := by
    simp [member]
  rw [hbytes]
  show (do
    let (data, rest) ← inflate _
    let (crc, rest) ← readLe32 rest
    let (isize, rest) ← readLe32 rest
    if crc = crc32 0 data ∧ isize = UInt32.ofNat data.length ∧ rest = [] then some data
    else none) = some data
  rw [hbody]
  simp only [Option.bind_eq_bind, Option.bind_some, readLe32_append, and_self, if_true]

/-! ## Data that is stored

Compressed data may be blocks that are stored as they are.  Here each of them holds one byte, and
the last one, which is marked, holds none.
-/

def storedByte (b : UInt8) : List UInt8 := [0x00, 0x01, 0x00, 0xfe, 0xff, b]

def storedEnd : List UInt8 := [0x01, 0x00, 0x00, 0xff, 0xff]

def inflateStored : List UInt8 → Option (List UInt8 × List UInt8)
  | 0x00 :: 0x01 :: 0x00 :: 0xfe :: 0xff :: b :: rest =>
      (inflateStored rest).map fun r ↦ (b :: r.1, r.2)
  | 0x01 :: 0x00 :: 0x00 :: 0xff :: 0xff :: rest => some ([], rest)
  | _ => none

theorem inflateStored_append (data rest : List UInt8) :
    inflateStored (data.flatMap storedByte ++ (storedEnd ++ rest)) = some (data, rest) := by
  induction data with
  | nil => rfl
  | cons b data ih =>
    have hbytes : (b :: data).flatMap storedByte ++ (storedEnd ++ rest) =
        0x00 :: 0x01 :: 0x00 :: 0xfe :: 0xff :: b ::
          (data.flatMap storedByte ++ (storedEnd ++ rest)) := rfl
    rw [hbytes, inflateStored, ih]
    rfl

end Gzip
