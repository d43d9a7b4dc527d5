-- SUMMARY: The spending-condition dispatcher, its accessors, canonical clearing and the sighash placeholder.
import LedgerStacks.Multisig

/-!
# Spending condition

`TransactionSpendingCondition::from_bytes` decodes the signer record, and its hash mode selects
the witness decoder: P2PKH and P2WPKH a single-signature witness, whose key encoding must be
compressed under P2WPKH; P2SH and P2WSH a multi-signature witness. The aggregate is read by the
accessors, cleared in place by `clear_signature`, and summarised for the signing digest by
`init_sighash`, which writes the fixed placeholder of the authorization into a caller buffer.
-/

namespace LedgerStacks

/-- `STANDARD_SINGLESIG_AUTH_LEN`: 16 bytes of nonce and fee, and the 66-byte witness. -/
def standardSinglesigAuthLen : Nat := 82

/-- `STANDARD_MULTISIG_AUTH_LEN`: 16 bytes of nonce and fee, the 4-byte field count, and the
2-byte required count. -/
def standardMultisigAuthLen : Nat := 22

/-- `SpendingConditionSignature`. -/
inductive SpendingConditionSignature
  | singlesig (c : SinglesigSpendingCondition)
  | multisig (c : MultisigSpendingCondition)
  deriving DecidableEq

namespace SpendingConditionSignature

def clearSignature : SpendingConditionSignature → Bytes → Bytes
  | singlesig c, buf => c.clearSignature buf
  | multisig c, buf => c.clearSignature buf

def requiredSignatures : SpendingConditionSignature → Option UInt16
  | multisig c => some c.requiredSignatures
  | _ => none

end SpendingConditionSignature

/-- `TransactionSpendingCondition`. -/
structure TransactionSpendingCondition where
  signer : SpendingConditionSigner
  signature : SpendingConditionSignature
  deriving DecidableEq

namespace TransactionSpendingCondition

/-- The `match hash_mode` of `from_bytes`: the witness decoder the hash mode selects, on the
bytes after the signer record. -/
def signatureFromBytes (hashMode : HashMode) (raw : Slice) :
    Except Failure (Slice × SpendingConditionSignature) :=
  match hashMode with
  | .p2pkh | .p2wpkh => do
    let (raw, sig) ← SinglesigSpendingCondition.fromBytes raw
    if !(← sig.keyEncoding.mapError .error).isValidHashMode hashMode then
      throw (.error .parserInvalidPubkeyEncoding)
    pure (raw, .singlesig sig)
  | .p2wsh | .p2sh => do
    let sig ← MultisigSpendingCondition.fromBytes raw
    pure (sig.1, .multisig sig.2)

def fromBytes (bytes : Slice) : Except Failure (Slice × TransactionSpendingCondition) := do
  let (raw, signer) ← SpendingConditionSigner.fromBytes bytes
  let hashMode ← signer.hashMode.mapError .error
  let (leftover, signature) ← signatureFromBytes hashMode raw
  pure (leftover, ⟨signer, signature⟩)

def signerPubKeyHash (self : TransactionSpendingCondition) : Slice := self.signer.pubKeyHash

/-- `self.signer.nonce().unwrap_or(0)`. -/
def nonce (self : TransactionSpendingCondition) : UInt64 := self.signer.nonce.toOption.getD 0

/-- `self.signer.fee().unwrap_or(0)`. -/
def fee (self : TransactionSpendingCondition) : UInt64 := self.signer.fee.toOption.getD 0

def isSinglesig (self : TransactionSpendingCondition) : Bool :=
  match self.signature with
  | .singlesig _ => true
  | _ => false

def isMultisig (self : TransactionSpendingCondition) : Bool :=
  match self.signature with
  | .multisig _ => true
  | _ => false

def numAuthFields (self : TransactionSpendingCondition) : Except Failure (Option UInt32) :=
  match self.signature with
  | .multisig sig => some <$> sig.numFields
  | _ => .ok none

def requiredSignatures (self : TransactionSpendingCondition) : Option UInt16 :=
  match self.signature with
  | .multisig sig => some sig.requiredSignatures
  | _ => none

/-- `init_sighash` on the caller's buffer `buf`: the result, and the buffer afterwards. -/
def initSighash (self : TransactionSpendingCondition) (buf : Bytes) :
    Except ParserError Nat × Bytes :=
  let bufLen := buf.length
  if self.isSinglesig ∧ bufLen ≥ standardSinglesigAuthLen then
    (.ok standardSinglesigAuthLen, writeBytes buf 0 0 standardSinglesigAuthLen)
  else if self.isMultisig ∧ bufLen ≥ standardMultisigAuthLen then
    let buf := writeBytes buf 0 0 20
    match self.requiredSignatures with
    | none => (.error .parserNoData, buf)
    | some count => (.ok standardMultisigAuthLen, copyAt buf 20 (beBytes 2 count.toNat))
  else (.error .parserNoData, buf)

-- ---------------------------------------------------------------------------
-- Decoding, branch by branch
-- ---------------------------------------------------------------------------

section
variable {p q : Nat} {mb e : UInt8} {s x sig r : Bytes} {m : HashMode}

/-- A single-signature witness is accepted when its tag is an encoding and, under P2WPKH, the
compressed one. -/
theorem signatureFromBytes_singlesig (hm : m = .p2pkh ∨ m = .p2wpkh)
    (hw : (e :: sig).length = singleSpendingConditionLen) :
    signatureFromBytes m ⟨q, (e :: sig) ++ r⟩ =
      if e.toNat ≤ 1 ∧ (m = .p2wpkh → e.toNat = 0) then
        .ok (⟨q + singleSpendingConditionLen, r⟩, .singlesig ⟨⟨⟨q, e :: sig⟩, hw⟩⟩)
      else .error (.error .parserInvalidPubkeyEncoding) := by
  have hdec : signatureFromBytes m ⟨q, (e :: sig) ++ r⟩ = (do
      let enc ← (SinglesigSpendingCondition.keyEncoding ⟨⟨⟨q, e :: sig⟩, hw⟩⟩).mapError .error
      if !enc.isValidHashMode m then throw (.error .parserInvalidPubkeyEncoding)
      pure (⟨q + singleSpendingConditionLen, r⟩, .singlesig ⟨⟨⟨q, e :: sig⟩, hw⟩⟩)) := by
    obtain rfl | rfl := hm <;> simp only [signatureFromBytes] <;>
      rw [SinglesigSpendingCondition.fromBytes_append hw] <;> rfl
  rw [hdec, SinglesigSpendingCondition.keyEncoding_eq]
  by_cases h0 : e.toNat = 0
  · simp [h0, Except.mapError]
  · by_cases h1 : e.toNat = 1
    · obtain rfl | rfl := hm <;> simp [h0, h1, Except.mapError]
    · have h2 : ¬e.toNat ≤ 1 := by omega
      simp [h0, h1, h2, Except.mapError]

theorem signatureFromBytes_singlesig_short {t : Slice} (hm : m = .p2pkh ∨ m = .p2wpkh)
    (h : t.bytes.length < singleSpendingConditionLen) :
    signatureFromBytes m t = .error .eof := by
  obtain rfl | rfl := hm <;> simp [signatureFromBytes, SinglesigSpendingCondition.fromBytes_short h]

theorem signatureFromBytes_multisig {t : Slice} (hm : m = .p2sh ∨ m = .p2wsh) :
    signatureFromBytes m t =
      (fun d => (d.1, .multisig d.2)) <$> MultisigSpendingCondition.fromBytes t := by
  obtain rfl | rfl := hm <;> simp [signatureFromBytes] <;> rfl

theorem fromBytes_short {t : Slice} (h : t.bytes.length < spendingConditionSignerLen) :
    fromBytes t = .error .eof := by
  simp [fromBytes, SpendingConditionSigner.fromBytes_short h]

theorem fromBytes_badMode {err : ParserError} (hs : (mb :: s).length = spendingConditionSignerLen)
    (he : HashMode.tryFrom mb = .error err) :
    fromBytes ⟨p, (mb :: s) ++ x⟩ = .error (.error err) := by
  rw [fromBytes, SpendingConditionSigner.fromBytes_append hs]
  simp [he, Except.mapError]

/-- Once the signer record names a hash mode, the result is that of the witness decoder the
mode selects, on the bytes after the record. -/
theorem fromBytes_mode (hs : (mb :: s).length = spendingConditionSignerLen)
    (hm : HashMode.tryFrom mb = .ok m) :
    fromBytes ⟨p, (mb :: s) ++ x⟩ =
      (fun d => (d.1, ⟨⟨⟨⟨p, mb :: s⟩, hs⟩⟩, d.2⟩)) <$>
        signatureFromBytes m ⟨p + spendingConditionSignerLen, x⟩ := by
  rw [fromBytes, SpendingConditionSigner.fromBytes_append hs]
  simp only [Except.bind_ok, SpendingConditionSigner.hashMode_mk, hm, Except.mapError]
  cases signatureFromBytes m ⟨p + spendingConditionSignerLen, x⟩ <;> rfl

-- ---------------------------------------------------------------------------
-- Inversion: what an accepted input is made of
-- ---------------------------------------------------------------------------

/-- What the single-signature branch accepts: a tag that is an encoding (the compressed one
under P2WPKH) and 65 signature bytes, viewed in place. -/
theorem signatureFromBytes_singlesig_eq_ok {t : Slice} {d : SpendingConditionSignature}
    (hm : m = .p2pkh ∨ m = .p2wpkh) (h : signatureFromBytes m ⟨q, x⟩ = .ok (t, d)) :
    ∃ e sig, ∃ hw : (e :: sig).length = singleSpendingConditionLen,
      x = (e :: sig) ++ t.bytes ∧ t.ptr = q + singleSpendingConditionLen ∧
      e.toNat ≤ 1 ∧ (m = .p2wpkh → e.toNat = 0) ∧ d = .singlesig ⟨⟨⟨q, e :: sig⟩, hw⟩⟩ := by
  rcases short_or_append ⟨q, x⟩ singleSpendingConditionLen with hx | ⟨z, r, rfl, hz⟩
  · rw [signatureFromBytes_singlesig_short hm hx] at h; cases h
  obtain ⟨e, sig, rfl⟩ : ∃ e sig, z = e :: sig := by
    cases z with
    | nil => cases hz
    | cons e sig => exact ⟨e, sig, rfl⟩
  rw [signatureFromBytes_singlesig hm hz] at h
  split at h
  · next hv =>
    obtain ⟨rfl, rfl⟩ := Prod.mk.inj (Except.ok.inj h)
    exact ⟨e, sig, hz, rfl, rfl, hv.1, hv.2, rfl⟩
  · cases h

/-- What the multi-signature branch accepts: the six zero bytes of a witness without fields. -/
theorem signatureFromBytes_multisig_eq_ok {t : Slice} {d : SpendingConditionSignature}
    (hm : m = .p2sh ∨ m = .p2wsh) (h : signatureFromBytes m ⟨q, x⟩ = .ok (t, d)) :
    x = List.replicate 6 0 ++ t.bytes ∧ t.ptr = q + 6 ∧
      d = .multisig ⟨⟨q, List.replicate 6 0⟩, .new, 0⟩ := by
  rw [signatureFromBytes_multisig hm] at h
  cases hms : MultisigSpendingCondition.fromBytes ⟨q, x⟩ with
  | error err => rw [hms] at h; cases h
  | ok d' =>
    rw [hms] at h
    obtain ⟨rfl, rfl⟩ := Prod.mk.inj (Except.ok.inj h)
    obtain ⟨hx, hptr, hd⟩ := MultisigSpendingCondition.fromBytes_eq_ok hms
    exact ⟨hx, hptr, by rw [← hd]⟩

/-- An accepted input is a signer record naming a hash mode, followed by bytes on which the
witness decoder of that mode returns the condition's witness and the rest. -/
theorem fromBytes_inv {b : Bytes} {t : Slice} {c : TransactionSpendingCondition}
    (h : fromBytes ⟨p, b⟩ = .ok (t, c)) :
    ∃ mb s x mode, ∃ hs : (mb :: s).length = spendingConditionSignerLen,
      b = (mb :: s) ++ x ∧ HashMode.tryFrom mb = .ok mode ∧ c.signer = ⟨⟨⟨p, mb :: s⟩, hs⟩⟩ ∧
      signatureFromBytes mode ⟨p + spendingConditionSignerLen, x⟩ = .ok (t, c.signature) := by
  rcases short_or_append ⟨p, b⟩ spendingConditionSignerLen with hb | ⟨y, x, rfl, hy⟩
  · rw [fromBytes_short hb] at h; cases h
  obtain ⟨mb, s, rfl⟩ : ∃ mb s, y = mb :: s := by
    cases y with
    | nil => cases hy
    | cons mb s => exact ⟨mb, s, rfl⟩
  cases hm : HashMode.tryFrom mb with
  | error err => rw [fromBytes_badMode hy hm] at h; cases h
  | ok mode =>
    rw [fromBytes_mode hy hm] at h
    cases hsig : signatureFromBytes mode ⟨p + spendingConditionSignerLen, x⟩ with
    | error err => rw [hsig] at h; cases h
    | ok d =>
      rw [hsig] at h
      obtain ⟨rfl, rfl⟩ := Prod.mk.inj (Except.ok.inj h)
      exact ⟨mb, s, x, mode, hy, rfl, hm, rfl, hsig⟩

end

end TransactionSpendingCondition

end LedgerStacks
