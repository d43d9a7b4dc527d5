-- SUMMARY: The spending condition as a value: signer record, witness and the rule tying it to the hash mode, the bytes that encode it, the views a decoder returns for it, and what the accessors show.
import LedgerStacks.Wire

/-!
# Values and their encoding

What a spending condition says, apart from where its bytes sit: the hash mode, the 20-byte
public-key hash, the nonce and the fee of the signer record, and a witness. A value carries the
rule the format puts on it: the hash mode selects the kind of witness, P2WPKH admits only a
compressed key, and a multi-signature witness holds at most 16 fields and requires no more
signatures than it has fields.

`encode` writes a value in the layout `TransactionSpendingCondition::from_bytes` reads, and
`view` builds the views that decoder returns for a value whose first byte is at a given
offset. `Reads` says which value a decoded condition denotes, and `observed` what the
accessors of the source return for it, which is less: no accessor returns the signature bytes
of a single signature. The round trips between the two levels are in
`LedgerStacks/RoundTrip.lean`.
-/

namespace LedgerStacks

/-- `n` bytes held by value, the contents of a `[u8; n]`. -/
abbrev Blob (n : Nat) := { b : Bytes // b.length = n }

-- ---------------------------------------------------------------------------
-- Tags
-- ---------------------------------------------------------------------------

/-- `mode as u8`: the wire byte of each hash mode, the one `HashMode::try_from` maps back. -/
def HashMode.toU8 : HashMode → UInt8
  | .p2pkh => 0
  | .p2wpkh => 1
  | .p2sh => 2
  | .p2wsh => 3

@[simp] theorem HashMode.tryFrom_toU8 (m : HashMode) : HashMode.tryFrom m.toU8 = .ok m := by
  cases m <;> rfl

theorem HashMode.toU8_of_tryFrom {b : UInt8} {m : HashMode} (h : HashMode.tryFrom b = .ok m) :
    m.toU8 = b := by
  unfold HashMode.tryFrom at h
  split at h <;> cases h <;> exact UInt8.toNat.inj (by rename_i hb; rw [hb]; rfl)

/-- `id as u8`. -/
def TransactionAuthFieldID.toU8 : TransactionAuthFieldID → UInt8
  | .publicKeyCompressed => 0
  | .publicKeyUncompressed => 1
  | .signatureCompressed => 2
  | .signatureUncompressed => 3

-- ---------------------------------------------------------------------------
-- Auth fields
-- ---------------------------------------------------------------------------

/-- An auth field as a value: a public key or a signature, and the encoding of its key. -/
inductive AuthField
  | publicKey (enc : TransactionPublicKeyEncoding) (key : Blob pubkeyLen)
  | signature (enc : TransactionPublicKeyEncoding) (sig : Blob signatureLen)
  deriving DecidableEq

namespace AuthField

/-- The id its tag names. -/
def id : AuthField → TransactionAuthFieldID
  | publicKey .compressed _ => .publicKeyCompressed
  | publicKey .uncompressed _ => .publicKeyUncompressed
  | signature .compressed _ => .signatureCompressed
  | signature .uncompressed _ => .signatureUncompressed

/-- The key or signature bytes after the tag. -/
def payload : AuthField → Bytes
  | publicKey _ key => key.1
  | signature _ sig => sig.1

/-- The field on the wire: its tag, then its key or signature. -/
def encode (f : AuthField) : Bytes := f.id.toU8 :: f.payload

/-- The decoded view of the field whose key or signature starts at offset `q`. -/
def view (q : Nat) : AuthField → TransactionAuthField
  | publicKey enc key => .publicKey enc ⟨⟨q, key.1⟩, key.2⟩
  | signature enc sig => .signature enc ⟨⟨q, sig.1⟩, sig.2⟩

/-- The views of consecutive fields, the first one's tag at offset `q`. -/
def viewsFrom : Nat → List AuthField → List TransactionAuthField
  | _, [] => []
  | q, f :: fs => f.view (q + 1) :: viewsFrom (q + f.encode.length) fs

@[simp] theorem length_viewsFrom (q : Nat) (fs : List AuthField) :
    (viewsFrom q fs).length = fs.length := by
  induction fs generalizing q <;> simp [viewsFrom, *]

end AuthField

/-- The value a decoded auth field denotes: the bytes it views, wherever they sit. -/
def TransactionAuthField.toValue : TransactionAuthField → AuthField
  | .publicKey enc key => .publicKey enc ⟨key.1.bytes, key.2⟩
  | .signature enc sig => .signature enc ⟨sig.1.bytes, sig.2⟩

@[simp] theorem AuthField.toValue_view (q : Nat) (f : AuthField) : (f.view q).toValue = f := by
  cases f <;> rfl

theorem AuthField.map_toValue_viewsFrom (q : Nat) (fs : List AuthField) :
    (viewsFrom q fs).map TransactionAuthField.toValue = fs := by
  induction fs generalizing q <;> simp [viewsFrom, *]

-- ---------------------------------------------------------------------------
-- Signer record
-- ---------------------------------------------------------------------------

/-- The signer record as a value. -/
structure SignerRecord where
  hashMode : HashMode
  pubKeyHash : Blob 20
  nonce : UInt64
  fee : UInt64
  deriving DecidableEq

namespace SignerRecord

/-- The 37 bytes of the record: the hash mode, the key hash, the nonce and the fee. -/
def encode (r : SignerRecord) : Bytes :=
  r.hashMode.toU8 :: (r.pubKeyHash.1 ++ beBytes 8 r.nonce.toNat ++ beBytes 8 r.fee.toNat)

theorem length_encode (r : SignerRecord) : r.encode.length = spendingConditionSignerLen := by
  simp [encode, r.pubKeyHash.2, spendingConditionSignerLen]

/-- The signer view of the record whose first byte is at offset `p`. -/
def view (r : SignerRecord) (p : Nat) : SpendingConditionSigner :=
  ⟨⟨⟨p, r.encode⟩, r.length_encode⟩⟩

end SignerRecord

-- ---------------------------------------------------------------------------
-- Witness
-- ---------------------------------------------------------------------------

/-- The witness as a value. The fields of a multi-signature witness are held in the bounded
vector the decoder stores them in. -/
inductive Witness
  | singlesig (enc : TransactionPublicKeyEncoding) (sig : Blob signatureLen)
  | multisig (fields : ArrayVec AuthField 16) (required : UInt16)
  deriving DecidableEq

namespace Witness

/-- The auth fields of the witness; a single-signature witness has none. -/
def authFields : Witness → List AuthField
  | singlesig .. => []
  | multisig fields _ => fields.toList

/-- The witnesses a hash mode admits: for P2PKH and P2WPKH a single signature whose key
encoding the mode accepts, for P2SH and P2WSH fields and a required count no larger than the
number of fields. -/
def Fits (mode : HashMode) : Witness → Prop
  | singlesig enc _ => (mode = .p2pkh ∨ mode = .p2wpkh) ∧ enc.isValidHashMode mode = true
  | multisig fields required => (mode = .p2sh ∨ mode = .p2wsh) ∧ required.toNat ≤ fields.len

instance (mode : HashMode) : (w : Witness) → Decidable (w.Fits mode)
  | singlesig .. => inferInstanceAs (Decidable (_ ∧ _))
  | multisig .. => inferInstanceAs (Decidable (_ ∧ _))

/-- The witness on the wire: the key encoding and the signature, or the field count, the
fields and the required count. -/
def encode : Witness → Bytes
  | singlesig enc sig => enc.toU8 :: sig.1
  | multisig fields required =>
    multisigWire (fields.toList.map AuthField.encode) required.toNat

/-- The decoded view of the witness whose first byte is at offset `q`: the 66 witness bytes,
or the consumed span with the fields viewed in place. -/
def view (q : Nat) : Witness → SpendingConditionSignature
  | singlesig enc sig => .singlesig ⟨⟨⟨q, enc.toU8 :: sig.1⟩, by simp [sig.2]; rfl⟩⟩
  | multisig fields required =>
    .multisig ⟨⟨q, (multisig fields required).encode⟩,
      ⟨AuthField.viewsFrom (q + 4) fields.toList, by simpa using fields.length_le⟩, required⟩

end Witness

-- ---------------------------------------------------------------------------
-- Spending condition
-- ---------------------------------------------------------------------------

/-- A spending condition as a value: a signer record, and a witness its hash mode admits. -/
structure SpendingCondition where
  signer : SignerRecord
  witness : Witness
  fits : witness.Fits signer.hashMode

namespace SpendingCondition

def encode (v : SpendingCondition) : Bytes := v.signer.encode ++ v.witness.encode

/-- The decoded condition for the value whose first byte is at offset `p`. -/
def view (v : SpendingCondition) (p : Nat) : TransactionSpendingCondition :=
  ⟨v.signer.view p, v.witness.view (p + spendingConditionSignerLen)⟩

end SpendingCondition

-- ---------------------------------------------------------------------------
-- What a decoded condition denotes
-- ---------------------------------------------------------------------------

/-- The decoded witness `s` denotes the value `w`. For a single signature: the key encoding
that `key_encoding` reads, and the 65 signature bytes the view holds after the key-encoding
byte. No accessor of the source returns those bytes: they sit in the private field of
`SinglesigSpendingCondition`, which only `key_encoding` and `clear_signature` read. For a
multi-signature witness: the fields as values, and the count `required_signatures` returns. -/
def SpendingConditionSignature.Reads : SpendingConditionSignature → Witness → Prop
  | .singlesig sg, .singlesig enc sig =>
    sg.keyEncoding = .ok enc ∧ sg.data.1.bytes.drop 1 = sig.1
  | .multisig m, .multisig fields required =>
    m.authFields.toList.map TransactionAuthField.toValue = fields.toList ∧
      m.requiredSignatures = required
  | _, _ => False

instance : (s : SpendingConditionSignature) → (w : Witness) → Decidable (s.Reads w)
  | .singlesig _, .singlesig .. => inferInstanceAs (Decidable (_ ∧ _))
  | .multisig _, .multisig .. => inferInstanceAs (Decidable (_ ∧ _))
  | .singlesig _, .multisig .. => isFalse id
  | .multisig _, .singlesig .. => isFalse id

/-- The decoded condition `c` denotes the value `v`: the hash mode, key hash, nonce and fee
that the signer's accessors read, and the witness as `SpendingConditionSignature.Reads` says. -/
def TransactionSpendingCondition.Reads (c : TransactionSpendingCondition)
    (v : SpendingCondition) : Prop :=
  c.signer.hashMode = .ok v.signer.hashMode ∧ c.signerPubKeyHash.bytes = v.signer.pubKeyHash.1 ∧
    c.signer.nonce = .ok v.signer.nonce ∧ c.signer.fee = .ok v.signer.fee ∧
    c.signature.Reads v.witness

instance (c : TransactionSpendingCondition) (v : SpendingCondition) : Decidable (c.Reads v) :=
  inferInstanceAs (Decidable (_ ∧ _ ∧ _ ∧ _ ∧ _))

-- ---------------------------------------------------------------------------
-- What the accessors show
-- ---------------------------------------------------------------------------

/-- What the accessors of the source return for a decoded condition: the signer's hash mode,
key hash, nonce and fee, the kind of witness and the key encoding of a single signature, and
the field and required counts. The signature bytes of a single signature are not among them. -/
structure Observed where
  hashMode : Except ParserError HashMode
  pubKeyHash : Bytes
  nonce : UInt64
  fee : UInt64
  isSinglesig : Bool
  keyEncoding : Option (Except ParserError TransactionPublicKeyEncoding)
  numAuthFields : Except Failure (Option UInt32)
  requiredSignatures : Option UInt16
  deriving DecidableEq

/-- The accessors applied to `c`: `signer.hash_mode`, `signer_pub_key_hash`, `nonce`, `fee`,
`is_singlesig`, `key_encoding` of a single-signature witness, `num_auth_fields` and
`required_signatures`. -/
def TransactionSpendingCondition.observed (c : TransactionSpendingCondition) : Observed where
  hashMode := c.signer.hashMode
  pubKeyHash := c.signerPubKeyHash.bytes
  nonce := c.nonce
  fee := c.fee
  isSinglesig := c.isSinglesig
  keyEncoding :=
    match c.signature with
    | .singlesig s => some s.keyEncoding
    | .multisig _ => none
  numAuthFields := c.numAuthFields
  requiredSignatures := c.requiredSignatures

end LedgerStacks
