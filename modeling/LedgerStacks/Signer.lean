-- SUMMARY: The 37-byte signer record (hash mode, public-key hash, nonce, fee) and the hash modes it names.
import LedgerStacks.Nom

/-!
# Signer record

`SpendingConditionSigner` is a view of the first 37 bytes of a spending condition: the hash
mode, the 20-byte public-key hash, and the big-endian nonce and fee. Its accessors read those
fields at fixed offsets. `HashMode` and the two key lengths come from `parser_common`, which is
not part of the source; they are modelled from the wire layout the spec gives.
-/

namespace LedgerStacks

-- ---------------------------------------------------------------------------
-- From `parser_common`
-- ---------------------------------------------------------------------------

/-- Modelled from the spec: `HashMode` of `parser_common` (not in the source), one
enumerant per signer-address derivation scheme. -/
inductive HashMode
  | p2pkh
  | p2wpkh
  | p2sh
  | p2wsh
  deriving DecidableEq, Repr

/-- Modelled from the spec: `HashMode::try_from` (not in the source), with the wire values
0 = P2PKH, 1 = P2WPKH, 2 = P2SH, 3 = P2WSH; any other byte is `UnexpectedValue`. -/
def HashMode.tryFrom (b : UInt8) : Except ParserError HashMode :=
  match b.toNat with
  | 0 => .ok .p2pkh
  | 1 => .ok .p2wpkh
  | 2 => .ok .p2sh
  | 3 => .ok .p2wsh
  | _ => .error .parserUnexpectedValue

/-- Every hash mode selects one of the two witness layouts. -/
theorem HashMode.singlesig_or_multisig (m : HashMode) :
    (m = .p2pkh ∨ m = .p2wpkh) ∨ (m = .p2sh ∨ m = .p2wsh) := by
  cases m <;> simp

/-- Modelled from the spec: `SIGNATURE_LEN` of `parser_common` (not in the source), the
length of a recoverable signature. -/
def signatureLen : Nat := 65

/-- Modelled from the spec: `PUBKEY_LEN` of `parser_common` (not in the source), the length
of a compressed public key. -/
def pubkeyLen : Nat := 33

-- ---------------------------------------------------------------------------
-- The signer record
-- ---------------------------------------------------------------------------

/-- `SPENDING_CONDITION_SIGNER_LEN`: 1-byte hash mode, 20-byte public-key hash, 8-byte nonce,
8-byte fee rate. -/
def spendingConditionSignerLen : Nat := 37

/-- `SpendingConditionSigner`: a view of the 37 signer bytes. -/
structure SpendingConditionSigner where
  data : ArrayRef spendingConditionSignerLen
  deriving DecidableEq

namespace SpendingConditionSigner

def fromBytes (bytes : Slice) : Except Failure (Slice × SpendingConditionSigner) := do
  let (raw, _) ← take spendingConditionSignerLen bytes
  let data ← arrayRef bytes 0 spendingConditionSignerLen
  pure (raw, ⟨data⟩)

def hashMode (self : SpendingConditionSigner) : Except ParserError HashMode :=
  HashMode.tryFrom (self.data.get ⟨0, by decide⟩)

/-- `&self.data[1..21]`. -/
def pubKeyHash (self : SpendingConditionSigner) : Slice :=
  ⟨self.data.1.ptr + 1, (self.data.1.bytes.drop 1).take 20⟩

/-- `be_u64(&self.data[off..])`, its nom error mapped to `parser_unexpected_value`: the
common body of `nonce` and `fee`. -/
def readU64 (self : SpendingConditionSigner) (off : Nat) : Except ParserError UInt64 :=
  match beU64 (self.data.from off) with
  | .ok (_, v) => .ok v
  | .error _ => .error .parserUnexpectedValue

def nonce (self : SpendingConditionSigner) : Except ParserError UInt64 := self.readU64 21

def fee (self : SpendingConditionSigner) : Except ParserError UInt64 := self.readU64 29

variable {p : Nat} {x r : Bytes} {s : Slice}

theorem fromBytes_append (hx : x.length = spendingConditionSignerLen) :
    fromBytes ⟨p, x ++ r⟩ = .ok (⟨p + spendingConditionSignerLen, r⟩, ⟨⟨⟨p, x⟩, hx⟩⟩) := by
  simp [fromBytes, take_append hx, arrayRef, hx]

theorem fromBytes_short (h : s.bytes.length < spendingConditionSignerLen) :
    fromBytes s = .error .eof := by
  simp [fromBytes, take_short h]

@[simp] theorem hashMode_mk {b : UInt8} {s : Bytes}
    (h : (b :: s).length = spendingConditionSignerLen) :
    hashMode ⟨⟨⟨p, b :: s⟩, h⟩⟩ = HashMode.tryFrom b :=
  rfl

/-- Every field read at an offset that leaves 8 bytes succeeds, with the big-endian value of
those 8 bytes. -/
theorem readU64_eq (self : SpendingConditionSigner) {off : Nat}
    (h : off + 8 ≤ spendingConditionSignerLen) :
    self.readU64 off = .ok (.ofNat (beNat ((self.data.1.bytes.drop off).take 8))) := by
  have hlen : 8 ≤ (self.data.from off).bytes.length := by
    simp [ArrayRef.from, self.data.2]; omega
  rw [readU64, beU64_of_le hlen]; rfl

end SpendingConditionSigner

end LedgerStacks
