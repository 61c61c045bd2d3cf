import FtyRest.Ecpp.GetlogStream
import FtyRest.Lib.Gzip

/-!
# The compressor of the logs

`_clonedcode_Compressor` of `getlog_GET.ecpp`.  The stream that deflates is not part of the
sources: it is a machine here that hands on some characters for each text that is written.
-/

namespace FtyRest.Ecpp

/-- `tnt::DeflateStream`. -/
structure DeflateStream where
  State : Type
  new : State
  write : State → List UInt8 → State × List UInt8
  finish : State → List UInt8

namespace DeflateStream

variable (D : DeflateStream)

/-- The state and what was handed on, after some texts. -/
def writes (s : D.State) : List (List UInt8) → D.State × List UInt8
  | [] => (s, [])
  | d :: ds =>
      let (s, z) := D.write s d
      let (s, zs) := writes s ds
      (s, z ++ zs)

/-- What is handed on is read back, whatever stands behind it. -/
def Inflates (inflate : List UInt8 → Option (List UInt8 × List UInt8)) : Prop :=
  ∀ ds rest, inflate ((D.writes D.new ds).2 ++ D.finish (D.writes D.new ds).1 ++ rest) =
    some (ds.flatten, rest)

end DeflateStream

/-- `_clonedcode_Compressor`, over a stream of chunks of some size. -/
structure Compressor (D : DeflateStream) (chunksize : Nat) where
  zbody : Cstreambuf chunksize := ⟨[], 0, Nat.zero_le _, fun _ ↦ rfl⟩
  deflator : D.State := D.new
  crc : UInt32 := 0
  size : UInt32 := 0

namespace Compressor

section

variable {D : DeflateStream} {chunksize : Nat} [NeZero chunksize]
  (raw : Nat → Vector UInt8 chunksize)

def header : List UInt8 := [0x1f, 0x8b, 0x08, 0x00, 0x00, 0x00, 0x00, 0x00, 0x04, 0x03]

def init (z : Compressor D chunksize) : Compressor D chunksize :=
  { z with zbody := z.zbody.write raw header }

/-- `compress`: the first `s` characters of `d`. -/
def compress (z : Compressor D chunksize) (d : List UInt8) (s : UInt32) : Compressor D chunksize :=
  let d := d.take s.toNat
  let (deflator, out) := D.write z.deflator d
  { zbody := z.zbody.write raw out
    deflator := deflator
    size := z.size + s
    crc := Gzip.crc32 z.crc d }

/-- Four characters, of `u` and of what is left of it when it is shifted. -/
def put32 (b : Cstreambuf chunksize) (u : UInt32) : Cstreambuf chunksize :=
  let b := b.sputc raw (u &&& 0xFF).toUInt8
  let u := u >>> 8
  let b := b.sputc raw (u &&& 0xFF).toUInt8
  let u := u >>> 8
  let b := b.sputc raw (u &&& 0xFF).toUInt8
  let u := u >>> 8
  b.sputc raw (u &&& 0xFF).toUInt8

def finalize (z : Compressor D chunksize) : Compressor D chunksize :=
  let zbody := z.zbody.write raw (D.finish z.deflator)
  let zbody := put32 raw zbody z.crc
  let zbody := put32 raw zbody z.size
  { z with zbody }

def str (z : Compressor D chunksize) : List UInt8 := z.zbody.str

/-- `clear`, which leaves the deflator as it is. -/
def clear (z : Compressor D chunksize) : Compressor D chunksize :=
  { z with zbody := z.zbody.makeEmpty, crc := 0, size := 0 }

end

/-! ## The file that it makes -/

section

variable {D : DeflateStream} {chunksize : Nat} [NeZero chunksize]
  {raw : Nat → Vector UInt8 chunksize}

theorem toUInt8_and (u : UInt32) : (u &&& 0xFF).toUInt8 = UInt8.ofNat u.toNat := by
  apply UInt8.toNat_inj.mp
  show ((u &&& 0xFF).toNat) % 256 = u.toNat % 256
  rw [UInt32.toNat_and]
  show (u.toNat &&& (2 ^ 8 - 1)) % 256 = _
  rw [Nat.and_two_pow_sub_one_eq_mod]
  exact Nat.mod_mod _ _

theorem toNat_shift (u : UInt32) : (u >>> 8).toNat = u.toNat / 256 := by
  rw [UInt32.toNat_shiftRight]
  exact Nat.shiftRight_eq_div_pow _ 8

theorem contents_put32 (b : Cstreambuf chunksize) (u : UInt32) :
    (put32 raw b u).contents = b.contents ++ Gzip.le32 u := by
  have hbytes : Gzip.le32 u = [(u &&& 0xFF).toUInt8, (u >>> 8 &&& 0xFF).toUInt8,
      (u >>> 8 >>> 8 &&& 0xFF).toUInt8, (u >>> 8 >>> 8 >>> 8 &&& 0xFF).toUInt8] := by
    simp only [toUInt8_and, toNat_shift]
    rfl
  rw [put32, Cstreambuf.contents_sputc, Cstreambuf.contents_sputc, Cstreambuf.contents_sputc,
    Cstreambuf.contents_sputc, hbytes, List.append_assoc, List.append_assoc, List.append_assoc]
  rfl

/-- The compressor after a header and some texts, each of them given with its length. -/
def After (D : DeflateStream) (ds : List (List UInt8)) (z : Compressor D chunksize) : Prop :=
  z.zbody.contents = header ++ (D.writes D.new ds).2 ∧ z.deflator = (D.writes D.new ds).1 ∧
    z.crc = Gzip.crc32 0 ds.flatten ∧ z.size = UInt32.ofNat ds.flatten.length

theorem writes_concat (s : D.State) (ds : List (List UInt8)) (d : List UInt8) :
    D.writes s (ds ++ [d]) =
      ((D.write (D.writes s ds).1 d).1, (D.writes s ds).2 ++ (D.write (D.writes s ds).1 d).2) := by
  induction ds generalizing s with
  | nil => simp [DeflateStream.writes]
  | cons e ds ih => simp [DeflateStream.writes, ih]

theorem init_zbody (z : Compressor D chunksize) :
    (z.init raw).zbody = z.zbody.write raw header := by
  unfold init
  dsimp only

theorem compress_zbody (z : Compressor D chunksize) (d : List UInt8) (s : UInt32) :
    (z.compress raw d s).zbody = z.zbody.write raw (D.write z.deflator (d.take s.toNat)).2 := rfl

theorem finalize_zbody (z : Compressor D chunksize) : (z.finalize raw).zbody =
    put32 raw (put32 raw (z.zbody.write raw (D.finish z.deflator)) z.crc) z.size := by
  unfold finalize
  dsimp only

theorem after_init (raw : Nat → Vector UInt8 chunksize) :
    After D [] (({} : Compressor D chunksize).init raw) := by
  refine ⟨?_, rfl, ?_, rfl⟩
  · rw [init_zbody, Cstreambuf.contents_write, Cstreambuf.contents_new]
    exact (List.append_nil header).symm
  · rw [List.flatten_nil, Gzip.crc32_nil]
    rfl

theorem after_compress (raw : Nat → Vector UInt8 chunksize) {ds : List (List UInt8)}
    {z : Compressor D chunksize} (h : After D ds z) {d : List UInt8} {s : UInt32}
    (hs : s.toNat ≤ d.length) :
    After D (ds ++ [d.take s.toNat]) (z.compress raw d s) := by
  obtain ⟨hbody, hdeflator, hcrc, hsize⟩ := h
  have hlen : (d.take s.toNat).length = s.toNat := by
    rw [List.length_take]
    exact Nat.min_eq_left hs
  have hflat : (ds ++ [d.take s.toNat]).flatten = ds.flatten ++ d.take s.toNat := by simp
  refine ⟨?_, ?_, ?_, ?_⟩
  · rw [compress_zbody, Cstreambuf.contents_write, hbody, hdeflator, writes_concat,
      List.append_assoc]
  · show (D.write z.deflator _).1 = _
    rw [hdeflator, writes_concat]
  · show Gzip.crc32 z.crc _ = _
    rw [hcrc, hflat, Gzip.crc32_append]
  · show z.size + s = _
    rw [hsize, hflat, List.length_append, hlen, UInt32.ofNat_add, UInt32.ofNat_toNat]

theorem str_finalize {ds : List (List UInt8)} {z : Compressor D chunksize} (h : After D ds z) :
    (z.finalize raw).str = Gzip.member 0 0x04 0x03
      ((D.writes D.new ds).2 ++ D.finish (D.writes D.new ds).1) ds.flatten := by
  obtain ⟨hbody, hdeflator, hcrc, hsize⟩ := h
  rw [str, finalize_zbody, Cstreambuf.str_eq, contents_put32, contents_put32,
    Cstreambuf.contents_write, hbody, hdeflator, hcrc, hsize]
  simp [Gzip.member, header, Gzip.le32, BigEndian.toLE]

/-- Some texts one after the other, each of them with its length. -/
def compressAll (raw : Nat → Vector UInt8 chunksize) (z : Compressor D chunksize)
    (ds : List (List UInt8)) : Compressor D chunksize :=
  ds.foldl (fun z d ↦ z.compress raw d (UInt32.ofNat d.length)) z

theorem after_compressAll (raw : Nat → Vector UInt8 chunksize) {before ds : List (List UInt8)}
    {z : Compressor D chunksize} (h : After D before z) (hds : ∀ d ∈ ds, d.length < 2 ^ 32) :
    After D (before ++ ds) (compressAll raw z ds) := by
  induction ds generalizing before z with
  | nil =>
    rw [List.append_nil]
    exact h
  | cons d ds ih =>
    have hd : (UInt32.ofNat d.length).toNat = d.length := by
      rw [UInt32.toNat_ofNat']
      exact Nat.mod_eq_of_lt (hds d List.mem_cons_self)
    have hnext := after_compress raw h (Nat.le_of_eq hd)
    rw [hd, List.take_length] at hnext
    have hrest := ih hnext fun e he ↦ hds e (List.mem_cons_of_mem d he)
    rw [List.append_assoc] at hrest
    exact hrest

end

/-! ## What is read of it -/

section

variable {D : DeflateStream} {inflate : List UInt8 → Option (List UInt8 × List UInt8)}

/-- Whatever pieces a text is compressed in, it is read back as one. -/
theorem gunzip_compressAll (hD : D.Inflates inflate) {chunksize : Nat} [NeZero chunksize]
    (raw : Nat → Vector UInt8 chunksize) {ds : List (List UInt8)}
    (hds : ∀ d ∈ ds, d.length < 2 ^ 32) :
    Gzip.gunzip inflate
        ((compressAll raw (({} : Compressor D chunksize).init raw) ds).finalize raw).str =
      some ds.flatten := by
  have hafter := after_compressAll raw (after_init raw (D := D)) hds
  rw [List.nil_append] at hafter
  rw [str_finalize hafter]
  exact Gzip.gunzip_member (hD ds)

/-- The body of a compressed reply, of what was read of the file. -/
def reply (D : DeflateStream) (raw : Nat → Vector UInt8 32768) (fileContent : List UInt8) :
    List UInt8 :=
  let compressor : Compressor D 32768 := {}
  let compressor := compressor.init raw
  let compressor := compressor.compress raw fileContent (UInt32.ofNat fileContent.length)
  (compressor.finalize raw).str

/-- The length is cut to 32 bits, and the file with it. -/
theorem gunzip_reply (hD : D.Inflates inflate) (raw : Nat → Vector UInt8 32768)
    (fileContent : List UInt8) :
    Gzip.gunzip inflate (reply D raw fileContent) =
      some (fileContent.take (fileContent.length % 2 ^ 32)) := by
  have hlen : (UInt32.ofNat fileContent.length).toNat = fileContent.length % 2 ^ 32 :=
    UInt32.toNat_ofNat'
  have hle : (UInt32.ofNat fileContent.length).toNat ≤ fileContent.length := by
    rw [hlen]
    exact Nat.mod_le _ _
  have hafter := after_compress raw (after_init raw (D := D)) hle
  rw [hlen, List.nil_append] at hafter
  rw [reply, str_finalize hafter, Gzip.gunzip_member (hD _)]
  simp

/-- A log that is asked for compressed is read back if and only if it is shorter than 4 GiB. -/
theorem gunzip_reply_iff (hD : D.Inflates inflate) (raw : Nat → Vector UInt8 32768)
    (fileContent : List UInt8) :
    Gzip.gunzip inflate (reply D raw fileContent) = some fileContent ↔
      fileContent.length < 2 ^ 32 := by
  rw [gunzip_reply hD, Option.some.injEq]
  constructor
  · intro h
    have hlen := congrArg List.length h
    rw [List.length_take] at hlen
    have hmod := Nat.mod_lt fileContent.length (by decide : 0 < 2 ^ 32)
    omega
  · intro h
    rw [Nat.mod_eq_of_lt h, List.take_length]

end

end Compressor

/-- A deflator that stores what it is given. -/
def storingStream : DeflateStream where
  State := Unit
  new := ()
  write _ d := ((), d.flatMap Gzip.storedByte)
  finish _ := Gzip.storedEnd

theorem storingStream_inflates : storingStream.Inflates Gzip.inflateStored := by
  intro ds rest
  have hwrites : (storingStream.writes () ds).2 = ds.flatten.flatMap Gzip.storedByte := by
    induction ds with
    | nil => rfl
    | cons d ds ih =>
      rw [List.flatten_cons, List.flatMap_append, ← ih]
      rfl
  show Gzip.inflateStored ((storingStream.writes () ds).2 ++ Gzip.storedEnd ++ rest) = _
  rw [hwrites, List.append_assoc]
  exact Gzip.inflateStored_append ds.flatten rest

theorem Compressor.gunzip_compressAll_stored :
    Gzip.gunzip Gzip.inflateStored
        ((compressAll (fun _ ↦ Vector.replicate 4 0)
          (({} : Compressor storingStream 4).init fun _ ↦ Vector.replicate 4 0)
          [[1, 2, 3], [4, 5]]).finalize fun _ ↦ Vector.replicate 4 0).str =
      some [1, 2, 3, 4, 5] :=
  gunzip_compressAll storingStream_inflates _ (by decide)

theorem Compressor.gunzip_reply_stored :
    Gzip.gunzip Gzip.inflateStored
        (reply storingStream (fun _ ↦ Vector.replicate 32768 0) [1, 2, 3]) = some [1, 2, 3] :=
  (gunzip_reply_iff storingStream_inflates _ [1, 2, 3]).mpr (by decide)

end FtyRest.Ecpp
