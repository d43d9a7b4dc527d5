-- SUMMARY: What a parsed condition yields for signing: the nonce and fee read back, the sighash placeholder, and the in-place clearing of the witness.
import LedgerStacks.Wire
import Mathlib.Algebra.BigOperators.Group.Finset

/-!
# Canonical forms

Three readings of a successfully parsed condition that the signing flow relies on. The nonce
and fee are the big-endian numbers at fixed offsets, so the `unwrap_or(0)` of the accessors is
never taken. `init_sighash` writes the fixed placeholder of the authorization, or fails without
touching the buffer. `clear_signature` writes zeros through the witness view into the buffer
the condition was parsed from.
-/

namespace LedgerStacks

/-- `beNat` as the positional sum it denotes. -/
theorem beNat_eq_sum (l : Bytes) :
    beNat l = ∑ i ∈ Finset.range l.length, (l.getD i 0).toNat * 256 ^ (l.length - 1 - i) := by
  induction l with
  | nil => rfl
  | cons b l ih =>
    rw [beNat_cons, ih, List.length_cons, Finset.sum_range_succ', Nat.add_comm]
    congr 1
    exact Finset.sum_congr rfl fun i _ => by simp only [List.getD_cons_succ]; congr 2; omega

namespace TransactionSpendingCondition

variable {p : Nat} {b : Bytes} {t : Slice} {c : TransactionSpendingCondition}

-- ---------------------------------------------------------------------------
-- Nonce and fee
-- ---------------------------------------------------------------------------

/-- The 8-byte field of an accepted input at offset `off` of the signer record is read as the
big-endian sum of its bytes, with no overflow: the common body of the nonce and the fee. -/
theorem readU64_of_fromBytes (h : fromBytes ⟨p, b⟩ = .ok (t, c)) (off : Nat)
    (hoff : off + 8 ≤ spendingConditionSignerLen) :
    c.signer.readU64 off =
        .ok (.ofNat (∑ i ∈ Finset.range 8, (b.getD (off + i) 0).toNat * 256 ^ (7 - i))) ∧
      (UInt64.ofNat (∑ i ∈ Finset.range 8, (b.getD (off + i) 0).toNat * 256 ^ (7 - i))).toNat =
        ∑ i ∈ Finset.range 8, (b.getD (off + i) 0).toNat * 256 ^ (7 - i) := by
  obtain ⟨mb, s, x, mode, hs, rfl, -, hsigner, -⟩ := fromBytes_inv h
  have hlen : (((mb :: s).drop off).take 8).length = 8 := by
    rw [List.length_take, List.length_drop, hs]; omega
  have hsum : beNat (((mb :: s).drop off).take 8) =
      ∑ i ∈ Finset.range 8, (((mb :: s) ++ x).getD (off + i) 0).toNat * 256 ^ (7 - i) := by
    rw [beNat_eq_sum, hlen]
    refine Finset.sum_congr rfl fun i hi => ?_
    have hi : i < 8 := Finset.mem_range.mp hi
    simp only [List.getD_eq_getElem?_getD, List.getElem?_take, if_pos hi, List.getElem?_drop]
    rw [List.getElem?_append_left (by rw [hs]; omega)]
  rw [SpendingConditionSigner.readU64_eq _ hoff, hsigner, ← hsum]
  exact ⟨rfl, UInt64.toNat_ofNat_of_lt (by simpa [hlen] using beNat_lt (((mb :: s).drop off).take 8))⟩

/-- The nonce and fee of every accepted input are the big-endian values of its bytes 21..29
and 29..37, and the condition's `nonce()` and `fee()` return them, never their default. -/
theorem nonce_fee_of_fromBytes (h : fromBytes ⟨p, b⟩ = .ok (t, c)) :
    c.signer.nonce =
        .ok (.ofNat (∑ i ∈ Finset.range 8, (b.getD (21 + i) 0).toNat * 256 ^ (7 - i))) ∧
      c.signer.fee =
        .ok (.ofNat (∑ i ∈ Finset.range 8, (b.getD (29 + i) 0).toNat * 256 ^ (7 - i))) ∧
      c.nonce.toNat = ∑ i ∈ Finset.range 8, (b.getD (21 + i) 0).toNat * 256 ^ (7 - i) ∧
      c.fee.toNat = ∑ i ∈ Finset.range 8, (b.getD (29 + i) 0).toNat * 256 ^ (7 - i) := by
  obtain ⟨hn, hn'⟩ := readU64_of_fromBytes h 21 (by decide)
  obtain ⟨hf, hf'⟩ := readU64_of_fromBytes h 29 (by decide)
  refine ⟨hn, hf, ?_, ?_⟩
  · rw [nonce, SpendingConditionSigner.nonce, hn]; exact hn'
  · rw [fee, SpendingConditionSigner.fee, hf]; exact hf'

theorem p2pkhVector_nonce_fee :
    ∃ c, fromBytes ⟨0, p2pkhVector⟩ = .ok (⟨103, []⟩, c) ∧
      c.nonce.toNat = ∑ i ∈ Finset.range 8, (p2pkhVector.getD (21 + i) 0).toNat * 256 ^ (7 - i) ∧
      c.fee.toNat = ∑ i ∈ Finset.range 8, (p2pkhVector.getD (29 + i) 0).toNat * 256 ^ (7 - i) := by
  obtain ⟨c, hc⟩ : ∃ c, fromBytes ⟨0, p2pkhVector⟩ = .ok (⟨103, []⟩, c) := ⟨_, rfl⟩
  exact ⟨c, hc, (nonce_fee_of_fromBytes hc).2.2⟩

-- ---------------------------------------------------------------------------
-- Field and signature counts
-- ---------------------------------------------------------------------------

/-- On every accepted input the two count accessors follow the kind of witness. Both are `None`
for a single signature. For a multi-signature witness both are `Some`: of the number of stored
fields, the conversion in `num_fields` never failing, and of the stored required count, which
never exceeds the number of fields, the bound that `from_bytes` checks. -/
theorem counts_of_fromBytes (h : fromBytes ⟨p, b⟩ = .ok (t, c)) :
    (∃ s, c.signature = .singlesig s ∧ c.numAuthFields = .ok none ∧
        c.requiredSignatures = none) ∨
      ∃ m, c.signature = .multisig m ∧
        (∃ n : UInt32, c.numAuthFields = .ok (some n) ∧ n.toNat = m.authFields.len) ∧
        c.requiredSignatures = some m.signaturesRequired ∧
        m.signaturesRequired.toNat ≤ m.authFields.len := by
  obtain ⟨_, _, _, mode, _, -, -, -, hsig⟩ := fromBytes_inv h
  rcases mode.singlesig_or_multisig with hmode | hmode
  · obtain ⟨_, _, _, -, -, -, -, hd⟩ := signatureFromBytes_singlesig_eq_ok hmode hsig
    exact .inl ⟨_, hd, by simp only [numAuthFields, hd], by simp only [requiredSignatures, hd]⟩
  · obtain ⟨-, -, hd⟩ := signatureFromBytes_multisig_eq_ok hmode hsig
    refine .inr ⟨_, hd, ⟨0, ?_, rfl⟩, by simp only [requiredSignatures, hd]; rfl, le_rfl⟩
    simp only [numAuthFields, hd]
    rfl

theorem p2pkhVector_counts :
    ∃ c, fromBytes ⟨0, p2pkhVector⟩ = .ok (⟨103, []⟩, c) ∧
      ((∃ s, c.signature = .singlesig s ∧ c.numAuthFields = .ok none ∧
          c.requiredSignatures = none) ∨
        ∃ m, c.signature = .multisig m ∧
          (∃ n : UInt32, c.numAuthFields = .ok (some n) ∧ n.toNat = m.authFields.len) ∧
          c.requiredSignatures = some m.signaturesRequired ∧
          m.signaturesRequired.toNat ≤ m.authFields.len) :=
  have hc : fromBytes ⟨0, p2pkhVector⟩ = .ok (⟨103, []⟩, _) := rfl
  ⟨_, hc, counts_of_fromBytes hc⟩

-- ---------------------------------------------------------------------------
-- The sighash placeholder
-- ---------------------------------------------------------------------------

theorem initSighash_singlesig {c : TransactionSpendingCondition} {buf : Bytes}
    (hc : c.isSinglesig = true) (hb : standardSinglesigAuthLen ≤ buf.length) :
    c.initSighash buf = (.ok 82, List.replicate 82 0 ++ buf.drop 82) := by
  rw [initSighash, if_pos ⟨hc, hb⟩, writeBytes_prefix _ hb]; rfl

theorem initSighash_multisig {c : TransactionSpendingCondition} {m : MultisigSpendingCondition}
    {buf : Bytes} (hc : c.signature = .multisig m) (hb : standardMultisigAuthLen ≤ buf.length) :
    c.initSighash buf =
      (.ok 22, List.replicate 20 0 ++ beBytes 2 m.signaturesRequired.toNat ++ buf.drop 22) := by
  have hsingle : c.isSinglesig = false := by simp [isSinglesig, hc]
  have hmulti : c.isMultisig = true := by simp [isMultisig, hc]
  have hb' : 22 ≤ buf.length := hb
  have hcopy := copyAt_append (List.replicate 20 0) ((buf.drop 20).take 2) (buf.drop 22)
    (beBytes 2 m.signaturesRequired.toNat)
    (by rw [length_beBytes, List.length_take, List.length_drop]; omega)
  have hsplit : (buf.drop 20).take 2 ++ buf.drop 22 = buf.drop 20 := by
    rw [show buf.drop 22 = (buf.drop 20).drop 2 by simp [List.drop_drop]]
    exact List.take_append_drop 2 _
  rw [List.length_replicate, List.append_assoc, hsplit] at hcopy
  rw [initSighash, if_neg (by simp [hsingle]), if_pos ⟨hmulti, hb⟩,
    writeBytes_prefix _ (by omega)]
  simp only [requiredSignatures, hc, MultisigSpendingCondition.requiredSignatures]
  rw [hcopy]; rfl

theorem initSighash_noData {c : TransactionSpendingCondition} {buf : Bytes}
    (hs : ¬(c.isSinglesig = true ∧ standardSinglesigAuthLen ≤ buf.length))
    (hm : ¬(c.isMultisig = true ∧ standardMultisigAuthLen ≤ buf.length)) :
    c.initSighash buf = (.error .parserNoData, buf) := by
  rw [initSighash, if_neg hs, if_neg hm]

/-- On every parsed condition and every buffer, `init_sighash` writes exactly the canonical
placeholder and leaves the rest of the buffer: 82 zero bytes for a single-signature condition;
for a multi-signature one 20 zero bytes and the big-endian required count, which are the last
two bytes of `raw`. In every other case it fails with `parser_no_data` and the buffer is as it
was, so the required-count step after the first 20 zeros never fails. -/
theorem initSighash_of_fromBytes {s t : Slice} {c : TransactionSpendingCondition}
    (h : fromBytes s = .ok (t, c)) (buf : Bytes) :
    (c.isSinglesig = true → 82 ≤ buf.length →
      c.initSighash buf = (.ok 82, List.replicate 82 0 ++ buf.drop 82)) ∧
    (∀ m, c.signature = .multisig m → 22 ≤ buf.length →
      c.initSighash buf =
        (.ok 22, List.replicate 20 0 ++ beBytes 2 m.signaturesRequired.toNat ++ buf.drop 22) ∧
      beBytes 2 m.signaturesRequired.toNat = m.raw.bytes.drop (m.raw.bytes.length - 2)) ∧
    (¬(c.isSinglesig = true ∧ 82 ≤ buf.length) → ¬(c.isMultisig = true ∧ 22 ≤ buf.length) →
      c.initSighash buf = (.error .parserNoData, buf)) := by
  refine ⟨initSighash_singlesig, fun m hm hb => ⟨initSighash_multisig hm hb, ?_⟩,
    initSighash_noData⟩
  obtain ⟨p, b⟩ := s
  obtain ⟨mb, s, x, mode, hs, rfl, -, -, hsig⟩ := fromBytes_inv h
  rcases mode.singlesig_or_multisig with hmode | hmode
  · obtain ⟨_, _, _, -, -, -, -, hd⟩ := signatureFromBytes_singlesig_eq_ok hmode hsig
    rw [hm] at hd; cases hd
  · obtain ⟨-, -, hd⟩ := signatureFromBytes_multisig_eq_ok hmode hsig
    rw [hm] at hd; cases hd; simp [beBytes_zero]

/-- The single-signature case on the source's P2PKH vector, and the multi-signature case on a
P2SH condition without fields, each in a buffer long enough for its placeholder. -/
theorem vectors_initSighash :
    (∃ c, fromBytes ⟨0, p2pkhVector⟩ = .ok (⟨103, []⟩, c) ∧
      c.initSighash (List.replicate 90 7) =
        (.ok 82, List.replicate 82 0 ++ (List.replicate 90 7).drop 82)) ∧
    ∃ c m, fromBytes ⟨0, p2shNoFields⟩ = .ok (⟨43, []⟩, c) ∧ c.signature = .multisig m ∧
      c.initSighash (List.replicate 30 7) =
        (.ok 22, List.replicate 20 0 ++ beBytes 2 m.signaturesRequired.toNat ++
          (List.replicate 30 7).drop 22) ∧
      beBytes 2 m.signaturesRequired.toNat = m.raw.bytes.drop (m.raw.bytes.length - 2) :=
  have hc : fromBytes ⟨0, p2pkhVector⟩ = .ok (⟨103, []⟩, _) := rfl
  have hd : fromBytes ⟨0, p2shNoFields⟩ = .ok (⟨43, []⟩, _) := rfl
  ⟨⟨_, hc, (initSighash_of_fromBytes hc _).1 rfl (by decide)⟩,
    _, _, hd, rfl, (initSighash_of_fromBytes hd _).2.1 _ rfl (by decide)⟩

-- ---------------------------------------------------------------------------
-- Clearing the witness
-- ---------------------------------------------------------------------------

/-- What clearing the witness of an accepted input writes, in a buffer that holds the input
after `pre`. A single-signature witness `e :: sig` gets 65 zeros over its tag and first 64
signature bytes and keeps its last signature byte; a multi-signature `raw` span gets zeros over
all but its last two bytes. The bytes before the input, the 37-byte signer record and the
unconsumed rest keep their values. -/
theorem clearSignature_of_fromBytes {pre b : Bytes} {t : Slice} {c : TransactionSpendingCondition}
    (h : fromBytes ⟨pre.length, b⟩ = .ok (t, c)) :
    match c.signature with
    | .singlesig _ => ∃ rec e sig, b = rec ++ (e :: sig) ++ t.bytes ∧ rec.length = 37 ∧
        sig.length = 65 ∧ c.signature.clearSignature (pre ++ b) =
          pre ++ rec ++ List.replicate 65 0 ++ sig.drop 64 ++ t.bytes
    | .multisig m => ∃ rec, b = rec ++ m.raw.bytes ++ t.bytes ∧ rec.length = 37 ∧
        c.signature.clearSignature (pre ++ b) =
          pre ++ rec ++ List.replicate (m.raw.bytes.length - 2) 0 ++
            m.raw.bytes.drop (m.raw.bytes.length - 2) ++ t.bytes := by
  obtain ⟨mb, s, x, mode, hs, rfl, -, -, hsig⟩ := fromBytes_inv h
  rcases mode.singlesig_or_multisig with hmode | hmode
  · obtain ⟨e, sig, hw, rfl, -, -, -, hd⟩ := signatureFromBytes_singlesig_eq_ok hmode hsig
    have hclear := SinglesigSpendingCondition.clearSignature_eq (pre ++ (mb :: s)) t.bytes hw
    rw [List.length_append, hs] at hclear
    rw [hd]
    refine ⟨mb :: s, e, sig, by simp, hs, Nat.succ.inj hw, ?_⟩
    simpa only [SpendingConditionSignature.clearSignature, List.append_assoc] using hclear
  · obtain ⟨rfl, -, hd⟩ := signatureFromBytes_multisig_eq_ok hmode hsig
    rw [hd]
    refine ⟨mb :: s, by simp, hs, ?_⟩
    have hclear := MultisigSpendingCondition.clearSignature_eq (pre ++ (mb :: s))
      (List.replicate 6 0) t.bytes .new 0
    rw [List.length_append, hs] at hclear
    simpa only [SpendingConditionSignature.clearSignature, List.append_assoc] using hclear

theorem p2pkhVector_clearSignature :
    ∃ c, fromBytes ⟨([] : Bytes).length, p2pkhVector⟩ = .ok (⟨103, []⟩, c) ∧
      match c.signature with
      | .singlesig _ => ∃ rec e sig, p2pkhVector = rec ++ (e :: sig) ++ [] ∧ rec.length = 37 ∧
          sig.length = 65 ∧ c.signature.clearSignature ([] ++ p2pkhVector) =
            [] ++ rec ++ List.replicate 65 0 ++ sig.drop 64 ++ []
      | .multisig m => ∃ rec, p2pkhVector = rec ++ m.raw.bytes ++ [] ∧ rec.length = 37 ∧
          c.signature.clearSignature ([] ++ p2pkhVector) =
            [] ++ rec ++ List.replicate (m.raw.bytes.length - 2) 0 ++
              m.raw.bytes.drop (m.raw.bytes.length - 2) ++ [] :=
  have hc : fromBytes ⟨([] : Bytes).length, p2pkhVector⟩ = .ok (⟨103, []⟩, _) := rfl
  ⟨_, hc, clearSignature_of_fromBytes hc⟩

/-- Clearing the source's P2PKH vector, parsed from the start of its buffer, leaves the last
signature byte `0xff` in place. -/
theorem p2pkhVector_clear_keeps_last_byte :
    ∃ c, fromBytes ⟨0, p2pkhVector⟩ = .ok (⟨103, []⟩, c) ∧
      c.signature.clearSignature p2pkhVector =
        p2pkhVector.take 37 ++ List.replicate 65 0 ++ [0xff] :=
  ⟨_, rfl, rfl⟩

end TransactionSpendingCondition

end LedgerStacks
