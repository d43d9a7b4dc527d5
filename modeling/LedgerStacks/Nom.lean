-- SUMMARY: Slices of the caller's buffer, the nom combinators the decoders are built from, and in-place writes.
import Mathlib.Data.List.Basic
import Mathlib.Tactic.Ring

/-!
# Slices and nom combinators

The decoders of `spending_condition.rs` never copy: every value they return is a view
(`&[u8]` or `&[u8; N]`) into the buffer the caller passed in, and canonicalization later
writes zeros through those views. A `Slice` therefore keeps the offset of its first byte in
that buffer next to its bytes. The nom parsers used (`take`, `be_u8`, `be_u16`, `be_u32`,
`be_u64`, all from `nom::*::complete`) fail with `ErrorKind::Eof` on short input and never
return `Incomplete`.
-/

namespace LedgerStacks

/-- Raw bytes. -/
abbrev Bytes := List UInt8

/-- A `&[u8]` into the caller's buffer: the offset of its first byte, and its bytes. -/
structure Slice where
  ptr : Nat
  bytes : Bytes
  deriving DecidableEq, Repr

/-- `&[u8; n]`: a slice whose length is fixed by its type. -/
def ArrayRef (n : Nat) : Type := { s : Slice // s.bytes.length = n }

instance (n : Nat) : DecidableEq (ArrayRef n) :=
  inferInstanceAs (DecidableEq { s : Slice // s.bytes.length = n })

/-- `a[i]` on an array reference; the index is in range by its type. -/
def ArrayRef.get {n : Nat} (a : ArrayRef n) (i : Fin n) : UInt8 :=
  a.1.bytes.get ⟨i, i.2.trans_eq a.2.symm⟩

/-- `&a[i..]`. -/
def ArrayRef.from {n : Nat} (a : ArrayRef n) (i : Nat) : Slice :=
  ⟨a.1.ptr + i, a.1.bytes.drop i⟩

-- ---------------------------------------------------------------------------
-- Errors
-- ---------------------------------------------------------------------------

/-- The variants of `crate::parser::error::ParserError` that the spending-condition code
raises. -/
inductive ParserError
  | parserUnexpectedValue
  | parserInvalidPubkeyEncoding
  | parserValueOutOfRange
  | parserNoData
  deriving DecidableEq, Repr

/-- How a decoder call ends when it does not return `Ok`. -/
inductive Failure
  /-- `nom::Err::Error` built from `ErrorKind::Eof`: the input ran out. -/
  | eof
  /-- `nom::Err::Error(e)`, raised directly or by `?` on a `Result<_, ParserError>`. -/
  | error (e : ParserError)
  /-- A Rust panic: an index or a range out of bounds. -/
  | panic
  deriving DecidableEq, Repr

/-- Parse outcomes have decidable equality, so that a decoder run on a fixed input can be
checked by `decide`. -/
instance decEqExcept {ε α : Type} [DecidableEq ε] [DecidableEq α] : DecidableEq (Except ε α)
  | .ok a, .ok b => decidable_of_iff (a = b) (by simp)
  | .error a, .error b => decidable_of_iff (a = b) (by simp)
  | .ok _, .error _ => isFalse (by simp)
  | .error _, .ok _ => isFalse (by simp)

namespace Except

variable {ε α β : Type}

@[simp] theorem bind_ok (a : α) (f : α → Except ε β) : (Except.ok a >>= f) = f a := rfl
@[simp] theorem bind_error (e : ε) (f : α → Except ε β) : (Except.error e >>= f) = .error e := rfl
@[simp] theorem pure_eq_ok (a : α) : (pure a : Except ε α) = .ok a := rfl
@[simp] theorem throw_eq_error (e : ε) : (throw e : Except ε α) = .error e := rfl
@[simp] theorem map_ok (a : α) (f : α → β) : (f <$> Except.ok a : Except ε β) = .ok (f a) := rfl
@[simp] theorem map_error (e : ε) (f : α → β) : (f <$> Except.error e : Except ε β) = .error e :=
  rfl

/-- Inversion of a bind that succeeded. -/
theorem bind_eq_ok {x : Except ε α} {f : α → Except ε β} {b : β} :
    x >>= f = .ok b ↔ ∃ a, x = .ok a ∧ f a = .ok b := by
  cases x <;> simp

theorem map_eq_error {f : α → β} {x : Except ε α} {e : ε} : f <$> x = .error e ↔ x = .error e := by
  cases x <;> simp

end Except

-- ---------------------------------------------------------------------------
-- nom combinators
-- ---------------------------------------------------------------------------

/-- `nom::bytes::complete::take(n)`: the slice after the first `n` bytes, and those bytes. -/
def take (n : Nat) (s : Slice) : Except Failure (Slice × Slice) :=
  if n ≤ s.bytes.length then .ok (⟨s.ptr + n, s.bytes.drop n⟩, ⟨s.ptr, s.bytes.take n⟩)
  else .error .eof

/-- `take(n)` whose result is read as `&[u8; n]`. -/
def takeArray (n : Nat) (s : Slice) : Except Failure (Slice × ArrayRef n) :=
  if h : n ≤ s.bytes.length then
    .ok (⟨s.ptr + n, s.bytes.drop n⟩, ⟨⟨s.ptr, s.bytes.take n⟩, by simp [h]⟩)
  else .error .eof

/-- `arrayref::array_ref!(s, off, n)`: the `n` bytes of `s` from `off` on, as `&[u8; n]`;
the range it slices panics when out of bounds. -/
def arrayRef (s : Slice) (off n : Nat) : Except Failure (ArrayRef n) :=
  if h : off + n ≤ s.bytes.length then
    .ok ⟨⟨s.ptr + off, (s.bytes.drop off).take n⟩, by simp; omega⟩
  else .error .panic

/-- The number a byte string denotes, most significant byte first. -/
def beNat (bs : Bytes) : Nat :=
  bs.foldl (fun acc b => acc * 256 + b.toNat) 0

/-- `w` bytes of `n`, most significant first: the wire form `BEw(n)`, and
`u16::to_be_bytes` for `w = 2`. -/
def beBytes : Nat → Nat → Bytes
  | 0, _ => []
  | w + 1, n => beBytes w (n / 256) ++ [.ofNat (n % 256)]

/-- `nom::number::complete::be_u8`. -/
def beU8 (s : Slice) : Except Failure (Slice × UInt8) :=
  match s.bytes with
  | b :: rest => .ok (⟨s.ptr + 1, rest⟩, b)
  | [] => .error .eof

@[simp] theorem beU8_cons {p : Nat} {b : UInt8} {r : Bytes} :
    beU8 ⟨p, b :: r⟩ = .ok (⟨p + 1, r⟩, b) := rfl

/-- `nom::number::complete::be_u16`. -/
def beU16 (s : Slice) : Except Failure (Slice × UInt16) := do
  let (rest, b) ← take 2 s
  pure (rest, .ofNat (beNat b.bytes))

/-- `nom::number::complete::be_u32`. -/
def beU32 (s : Slice) : Except Failure (Slice × UInt32) := do
  let (rest, b) ← take 4 s
  pure (rest, .ofNat (beNat b.bytes))

/-- `nom::number::complete::be_u64`. -/
def beU64 (s : Slice) : Except Failure (Slice × UInt64) := do
  let (rest, b) ← take 8 s
  pure (rest, .ofNat (beNat b.bytes))

-- ---------------------------------------------------------------------------
-- Writes through a view
-- ---------------------------------------------------------------------------

/-- `buf[off..off + src.len()].copy_from_slice(src)` on the caller's buffer. -/
def copyAt : Bytes → Nat → Bytes → Bytes
  | [], _, _ => []
  | b :: bs, 0, [] => b :: bs
  | _ :: bs, 0, v :: vs => v :: copyAt bs 0 vs
  | b :: bs, p + 1, src => b :: copyAt bs p src

/-- `ptr.write_bytes(val, count)` on the caller's buffer: the `count` bytes from offset
`ptr` on become `val`. -/
def writeBytes (buf : Bytes) (ptr : Nat) (val : UInt8) (count : Nat) : Bytes :=
  copyAt buf ptr (List.replicate count val)

-- ---------------------------------------------------------------------------
-- Big-endian numbers
-- ---------------------------------------------------------------------------

theorem UInt8.ofNat_toNat (b : UInt8) : UInt8.ofNat b.toNat = b := by
  apply UInt8.toNat.inj
  simp only [UInt8.toNat, UInt8.ofNat, BitVec.toNat_ofNat]
  omega

@[simp] theorem length_beBytes (w n : Nat) : (beBytes w n).length = w := by
  induction w generalizing n <;> simp [beBytes, *]

private theorem foldl_be (a : Nat) (l : Bytes) :
    l.foldl (fun acc b => acc * 256 + b.toNat) a = a * 256 ^ l.length + beNat l := by
  induction l generalizing a with
  | nil => simp [beNat]
  | cons b l ih =>
    have hcons : beNat (b :: l) = b.toNat * 256 ^ l.length + beNat l := by
      rw [beNat, List.foldl_cons, ih]; simp
    rw [List.foldl_cons, ih, hcons, List.length_cons]
    ring

@[simp] theorem beNat_nil : beNat [] = 0 := rfl

theorem beNat_cons (b : UInt8) (l : Bytes) :
    beNat (b :: l) = b.toNat * 256 ^ l.length + beNat l := by
  rw [beNat, List.foldl_cons, foldl_be]; simp

theorem beNat_append_singleton (l : Bytes) (b : UInt8) :
    beNat (l ++ [b]) = beNat l * 256 + b.toNat := by
  simp [beNat, List.foldl_append]

theorem beNat_lt (l : Bytes) : beNat l < 256 ^ l.length := by
  induction l with
  | nil => simp
  | cons b l ih =>
    rw [beNat_cons, List.length_cons, Nat.pow_succ']
    calc b.toNat * 256 ^ l.length + beNat l < b.toNat * 256 ^ l.length + 256 ^ l.length := by omega
      _ = (b.toNat + 1) * 256 ^ l.length := by ring
      _ ≤ 256 * 256 ^ l.length := Nat.mul_le_mul_right _ (UInt8.toNat_lt_size b)

/-- Reading back `BEw(n)` gives `n` modulo `256 ^ w`. -/
theorem beNat_beBytes (w n : Nat) : beNat (beBytes w n) = n % 256 ^ w := by
  induction w generalizing n with
  | zero => simp [beBytes, Nat.mod_one]
  | succ w ih =>
    rw [beBytes, beNat_append_singleton, ih, Nat.pow_succ', Nat.mod_mul]
    simp only [UInt8.toNat, UInt8.ofNat, BitVec.toNat_ofNat]
    omega

/-- Writing back the value of `l` in `l.length` bytes gives `l`. -/
theorem beBytes_beNat (l : Bytes) : beBytes l.length (beNat l) = l := by
  induction l using List.reverseRecOn with
  | nil => rfl
  | append_singleton l b ih =>
    have hb : b.toNat < 256 := UInt8.toNat_lt_size b
    rw [List.length_append, List.length_singleton, beBytes, beNat_append_singleton,
      show (beNat l * 256 + b.toNat) / 256 = beNat l by omega,
      show (beNat l * 256 + b.toNat) % 256 = b.toNat by omega, ih, UInt8.ofNat_toNat]

theorem beBytes_zero (w : Nat) : beBytes w 0 = List.replicate w 0 := by
  induction w with
  | zero => rfl
  | succ w ih => rw [beBytes, Nat.zero_div, ih, List.replicate_succ']; rfl

/-- Only zero bytes read as zero. -/
theorem beNat_eq_zero {l : Bytes} (h : beNat l = 0) : l = List.replicate l.length 0 := by
  induction l with
  | nil => rfl
  | cons b l ih =>
    rw [beNat_cons, Nat.add_eq_zero_iff] at h
    have hb : b.toNat = 0 :=
      (Nat.mul_eq_zero.mp h.1).resolve_right (Nat.pos_pow_of_pos _ (by decide)).ne'
    rw [UInt8.toNat.inj (b := 0) hb, List.length_cons, List.replicate_succ, ← ih h.2]

-- ---------------------------------------------------------------------------
-- Combinator equations
-- ---------------------------------------------------------------------------

section
variable {n p : Nat} {x r : Bytes} {s : Slice}

theorem take_append (hx : x.length = n) : take n ⟨p, x ++ r⟩ = .ok (⟨p + n, r⟩, ⟨p, x⟩) := by
  subst hx; simp [take]

theorem take_of_le (h : n ≤ s.bytes.length) :
    take n s = .ok (⟨s.ptr + n, s.bytes.drop n⟩, ⟨s.ptr, s.bytes.take n⟩) :=
  if_pos h

theorem take_short (h : s.bytes.length < n) : take n s = .error .eof := by
  simp [take]; omega

theorem takeArray_append (hx : x.length = n) :
    takeArray n ⟨p, x ++ r⟩ = .ok (⟨p + n, r⟩, ⟨⟨p, x⟩, hx⟩) := by
  subst hx; simp [takeArray]

theorem takeArray_short (h : s.bytes.length < n) : takeArray n s = .error .eof := by
  simp [takeArray]; omega

/-- Every slice either is too short for `take n` or splits into `n` bytes and a rest. -/
theorem short_or_append (s : Slice) (n : Nat) :
    s.bytes.length < n ∨ ∃ x r, s.bytes = x ++ r ∧ x.length = n :=
  (Nat.lt_or_ge _ _).imp_right fun h =>
    ⟨_, _, (List.take_append_drop n s.bytes).symm, List.length_take_of_le h⟩

theorem beU16_append (hx : x.length = 2) :
    beU16 ⟨p, x ++ r⟩ = .ok (⟨p + 2, r⟩, .ofNat (beNat x)) := by
  simp [beU16, take_append hx]

theorem beU32_append (hx : x.length = 4) :
    beU32 ⟨p, x ++ r⟩ = .ok (⟨p + 4, r⟩, .ofNat (beNat x)) := by
  simp [beU32, take_append hx]

theorem beU64_append (hx : x.length = 8) :
    beU64 ⟨p, x ++ r⟩ = .ok (⟨p + 8, r⟩, .ofNat (beNat x)) := by
  simp [beU64, take_append hx]

theorem beU64_of_le (h : 8 ≤ s.bytes.length) :
    beU64 s = .ok (⟨s.ptr + 8, s.bytes.drop 8⟩, .ofNat (beNat (s.bytes.take 8))) := by
  simp [beU64, take_of_le h]

theorem beU16_short (h : s.bytes.length < 2) : beU16 s = .error .eof := by
  simp [beU16, take_short h]

theorem beU32_short (h : s.bytes.length < 4) : beU32 s = .error .eof := by
  simp [beU32, take_short h]

end

-- ---------------------------------------------------------------------------
-- Writes
-- ---------------------------------------------------------------------------

/-- A copy over `b`, behind the prefix `a`, replaces exactly `b`. -/
theorem copyAt_append (a b c src : Bytes) (h : src.length = b.length) :
    copyAt (a ++ b ++ c) a.length src = a ++ src ++ c := by
  induction a with
  | nil =>
    induction b generalizing src with
    | nil => cases src <;> cases c <;> simp_all [copyAt]
    | cons x b ih =>
      cases src with
      | nil => simp at h
      | cons v vs => simpa [copyAt] using ih vs (by simpa using h)
  | cons x a ih => simpa [copyAt] using ih

theorem writeBytes_append (a b c : Bytes) (v : UInt8) :
    writeBytes (a ++ b ++ c) a.length v b.length = a ++ List.replicate b.length v ++ c :=
  copyAt_append a b c _ (List.length_replicate _ _)

/-- A write of `n ≤ buf.length` bytes at the start of the buffer. -/
theorem writeBytes_prefix {buf : Bytes} {n : Nat} (v : UInt8) (h : n ≤ buf.length) :
    writeBytes buf 0 v n = List.replicate n v ++ buf.drop n := by
  have := writeBytes_append [] (buf.take n) (buf.drop n) v
  rwa [List.nil_append, List.take_append_drop, List.length_take_of_le h, List.nil_append] at this

end LedgerStacks
