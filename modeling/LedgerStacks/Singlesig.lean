-- SUMMARY: The 66-byte single-signature witness: its key-encoding tag, the P2WPKH rule, and its clearing.
import LedgerStacks.Signer

/-!
# Single-signature witness

A single-signature witness is one key-encoding byte followed by a 65-byte recoverable
signature. Decoding only takes the 66 bytes; the tag is checked by `key_encoding`, and the
dispatcher adds the P2WPKH rule (`is_valid_hash_mode`). `clear_signature` writes through the
view into the caller's buffer.
-/

namespace LedgerStacks

/-- `SINGLE_SPENDING_CONDITION_LEN`: a 65-byte signature and its 1-byte key encoding. -/
def singleSpendingConditionLen : Nat := 66

/-- `TransactionPublicKeyEncoding`, a `#[repr(u8)]` enum. -/
inductive TransactionPublicKeyEncoding
  | compressed
  | uncompressed
  deriving DecidableEq, Repr

namespace TransactionPublicKeyEncoding

/-- `self as u8`. -/
def toU8 : TransactionPublicKeyEncoding → UInt8
  | compressed => 0x00
  | uncompressed => 0x01

/-- BIPs 141 and 143: a P2WPKH script derives only from a compressed public key. -/
def isValidHashMode (self : TransactionPublicKeyEncoding) (mode : HashMode) : Bool :=
  if mode = .p2wpkh ∧ self ≠ .compressed then false else true

@[simp] theorem isValidHashMode_compressed (mode : HashMode) :
    compressed.isValidHashMode mode = true := by
  simp [isValidHashMode]

@[simp] theorem isValidHashMode_uncompressed (mode : HashMode) :
    uncompressed.isValidHashMode mode = decide (mode ≠ .p2wpkh) := by
  cases mode <;> simp [isValidHashMode]

end TransactionPublicKeyEncoding

/-- `SinglesigSpendingCondition`: a view of the key-encoding byte and the signature. -/
structure SinglesigSpendingCondition where
  data : ArrayRef singleSpendingConditionLen
  deriving DecidableEq

namespace SinglesigSpendingCondition

open TransactionPublicKeyEncoding (compressed uncompressed)

def fromBytes (bytes : Slice) : Except Failure (Slice × SinglesigSpendingCondition) := do
  let len := signatureLen + 1
  let (raw, _) ← take len bytes
  let data ← arrayRef bytes 0 singleSpendingConditionLen
  pure (raw, ⟨data⟩)

def keyEncoding (self : SinglesigSpendingCondition) :
    Except ParserError TransactionPublicKeyEncoding :=
  let x := self.data.get ⟨0, by decide⟩
  if x = compressed.toU8 then .ok .compressed
  else if x = uncompressed.toU8 then .ok .uncompressed
  else .error .parserInvalidPubkeyEncoding

/-- `clear_signature`: the `Compressed` tag, then `SIGNATURE_LEN` zero bytes, both written
from the view's first byte as the source's `ptr` is. -/
def clearSignature (self : SinglesigSpendingCondition) (buf : Bytes) : Bytes :=
  let ptr := self.data.1.ptr
  let buf := writeBytes buf ptr compressed.toU8 1
  writeBytes buf ptr 0 signatureLen

variable {p : Nat} {x r : Bytes} {s : Slice}

private theorem len_eq : signatureLen + 1 = singleSpendingConditionLen := rfl

theorem fromBytes_append (hx : x.length = singleSpendingConditionLen) :
    fromBytes ⟨p, x ++ r⟩ = .ok (⟨p + singleSpendingConditionLen, r⟩, ⟨⟨⟨p, x⟩, hx⟩⟩) := by
  simp [fromBytes, len_eq, take_append hx, arrayRef, hx]

theorem fromBytes_short (h : s.bytes.length < singleSpendingConditionLen) :
    fromBytes s = .error .eof := by
  simp [fromBytes, len_eq, take_short h]

/-- The tag decides the encoding: 0 is compressed, 1 uncompressed, any other byte an error. -/
theorem keyEncoding_eq {e : UInt8} {sig : Bytes}
    (h : (e :: sig).length = singleSpendingConditionLen) :
    keyEncoding ⟨⟨⟨p, e :: sig⟩, h⟩⟩ =
      if e.toNat = 0 then .ok .compressed
      else if e.toNat = 1 then .ok .uncompressed
      else .error .parserInvalidPubkeyEncoding := by
  have h0 : e = 0 ↔ e.toNat = 0 := ⟨fun h => h ▸ rfl, fun h => UInt8.toNat.inj (b := 0) h⟩
  have h1 : e = 1 ↔ e.toNat = 1 := ⟨fun h => h ▸ rfl, fun h => UInt8.toNat.inj (b := 1) h⟩
  show (if e = 0 then _ else if e = 1 then _ else _) = _
  simp only [h0, h1]

/-- Clearing a witness `e :: sig` that stands at offset `a.length` of the buffer writes 65
zero bytes over the tag and the first 64 signature bytes; the last signature byte and every
byte outside the witness keep their value. -/
theorem clearSignature_eq (a c : Bytes) {e : UInt8} {sig : Bytes}
    (h : (e :: sig).length = singleSpendingConditionLen) :
    clearSignature ⟨⟨⟨a.length, e :: sig⟩, h⟩⟩ (a ++ (e :: sig) ++ c) =
      a ++ List.replicate 65 0 ++ (sig.drop 64 ++ c) := by
  have hsig : sig.length = 65 := by simpa [singleSpendingConditionLen] using h
  have h1 : writeBytes (a ++ [e] ++ (sig ++ c)) a.length compressed.toU8 1 =
      a ++ [0] ++ (sig ++ c) := writeBytes_append a [e] _ _
  have h2 : writeBytes (a ++ (0 :: sig.take 64) ++ (sig.drop 64 ++ c)) a.length 0 65 =
      a ++ List.replicate 65 0 ++ (sig.drop 64 ++ c) := by
    simpa [hsig] using writeBytes_append a (0 :: sig.take 64) (sig.drop 64 ++ c) 0
  simp only [clearSignature, signatureLen]
  rw [show a ++ e :: sig ++ c = a ++ [e] ++ (sig ++ c) by simp, h1]
  rw [show a ++ [0] ++ (sig ++ c) = a ++ (0 :: sig.take 64) ++ (sig.drop 64 ++ c) by
    nth_rewrite 1 [← List.take_append_drop 64 sig]
    simp only [List.append_assoc, List.cons_append, List.nil_append], h2]

end SinglesigSpendingCondition

end LedgerStacks
