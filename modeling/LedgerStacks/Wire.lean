-- SUMMARY: The wire grammar of a spending condition, and the decoder against it: sound everywhere, accepting every single-signature word, panicking on every multi-signature word with a field.
import LedgerStacks.Condition

/-!
# Wire grammar

The layout of a spending condition, written as a grammar over byte strings and independent of
the decoders: a 37-byte signer record whose first byte names a hash mode, then the witness that
mode selects, a single-signature witness for P2PKH and P2WPKH or a multi-signature witness for
P2SH and P2WSH. No word of the grammar is a proper prefix of another, so a decoder for it can
leave any suffix unconsumed.

Against the grammar, `TransactionSpendingCondition::from_bytes` is sound: what it accepts is a
word followed by the rest, with the views on the right spans. It accepts every
single-signature word and the multi-signature words without fields, and it panics on every
multi-signature word with a field, where the field loop stores into the empty `ArrayVec`.
-/

namespace LedgerStacks

/-- An auth field on the wire: a tag, then a 33-byte public key for tags 0 and 1, or a 65-byte
signature for tags 2 and 3. -/
def WireAuthField (f : Bytes) : Prop :=
  ∃ t x, f = t :: x ∧
    (t.toNat ≤ 1 ∧ x.length = pubkeyLen ∨ (t.toNat = 2 ∨ t.toNat = 3) ∧ x.length = signatureLen)

/-- `BE32(n) ++ f_1 ++ ... ++ f_n ++ BE16(k)` for the fields `fs = [f_1, ..., f_n]`. -/
def multisigWire (fs : List Bytes) (k : Nat) : Bytes :=
  beBytes 4 fs.length ++ (fs.flatten ++ beBytes 2 k)

/-- The words of the grammar: a signer record `mb :: s` naming `mode`, then its witness. -/
inductive Wire : Bytes → Prop
  | singlesig {mb e : UInt8} {s sig : Bytes} {mode : HashMode} :
      (mb :: s).length = spendingConditionSignerLen → HashMode.tryFrom mb = .ok mode →
      mode = .p2pkh ∨ mode = .p2wpkh → e.toNat ≤ 1 → sig.length = signatureLen →
      (mode = .p2wpkh → e.toNat = 0) → Wire ((mb :: s) ++ (e :: sig))
  | multisig {mb : UInt8} {s : Bytes} {mode : HashMode} {fs : List Bytes} {k : Nat} :
      (mb :: s).length = spendingConditionSignerLen → HashMode.tryFrom mb = .ok mode →
      mode = .p2sh ∨ mode = .p2wsh → fs.length ≤ 16 → (∀ f ∈ fs, WireAuthField f) →
      k ≤ fs.length → Wire ((mb :: s) ++ multisigWire fs k)

theorem multisigWire_nil : multisigWire [] 0 = List.replicate 6 0 := rfl

-- ---------------------------------------------------------------------------
-- The witness decoders on words
-- ---------------------------------------------------------------------------

/-- Every auth field of the grammar decodes, consuming exactly its bytes. -/
theorem TransactionAuthField.fromBytes_of_wire {p : Nat} {f r : Bytes} (hf : WireAuthField f) :
    ∃ fld, fromBytes ⟨p, f ++ r⟩ = .ok (⟨p + f.length, r⟩, fld) := by
  obtain ⟨t, x, rfl, ⟨ht, hx⟩ | ⟨ht, hx⟩⟩ := hf
  · have h := fromBytes_publicKey (p := p) (r := r) ht hx
    rw [show p + 1 + pubkeyLen = p + (t :: x).length by simp [hx]; omega] at h
    exact ⟨_, h⟩
  · have h := fromBytes_signature (p := p) (r := r) ht hx
    rw [show p + 1 + signatureLen = p + (t :: x).length by simp [hx]; omega] at h
    exact ⟨_, h⟩

namespace MultisigSpendingCondition

variable {p : Nat} {r : Bytes}

/-- The witness without fields is accepted, and `raw` is its six bytes. -/
theorem fromBytes_wire_nil :
    fromBytes ⟨p, multisigWire [] 0 ++ r⟩ =
      .ok (⟨p + 6, r⟩, ⟨⟨p, multisigWire [] 0⟩, .new, 0⟩) := by
  show fromBytes ⟨p, [0, 0, 0, 0] ++ ([0, 0] ++ r)⟩ = _
  rw [fromBytes_noFields (c := [0, 0, 0, 0]) (k := [0, 0]) rfl rfl rfl]
  rfl

/-- What the multi-signature decoder accepts, exactly: the six zero bytes of a witness with no
field and no required signature, followed by anything. -/
theorem fromBytes_eq_ok_iff {x : Bytes} {t : Slice} {m : MultisigSpendingCondition} :
    fromBytes ⟨p, x⟩ = .ok (t, m) ↔
      x = multisigWire [] 0 ++ t.bytes ∧ t.ptr = p + 6 ∧
        m = ⟨⟨p, multisigWire [] 0⟩, .new, 0⟩ :=
  ⟨fromBytes_eq_ok, fun ⟨hx, hptr, hm⟩ => by
    rw [hx, fromBytes_wire_nil, hm, ← hptr]⟩

/-- Every witness with a field ends in a panic: the first field decodes, and storing it
indexes the empty field list. -/
theorem fromBytes_wire_cons {f : Bytes} {fs : List Bytes} {k : Nat}
    (hn : fs.length + 1 < 256 ^ 4) (hf : WireAuthField f) :
    fromBytes ⟨p, multisigWire (f :: fs) k ++ r⟩ = .error .panic := by
  obtain ⟨fld, hfld⟩ :=
    TransactionAuthField.fromBytes_of_wire (p := p + 4) (r := fs.flatten ++ beBytes 2 k ++ r) hf
  have hc : 0 < beNat (beBytes 4 (fs.length + 1)) := by
    rw [beNat_beBytes, Nat.mod_eq_of_lt hn]; omega
  rw [show multisigWire (f :: fs) k ++ r =
      beBytes 4 (fs.length + 1) ++ (f ++ (fs.flatten ++ beBytes 2 k ++ r)) by
    simp [multisigWire]]
  rw [fromBytes_fields (length_beBytes _ _) hc, hfld]
  rfl

/-- One compressed public key, `0x00` then 33 bytes of `0x02`. -/
def oneKeyField : Bytes := 0 :: List.replicate 33 2

/-- The one-key witness with one required signature is a word of the grammar, and decoding it
panics instead of returning the key. -/
theorem oneKeyWitness_panics :
    WireAuthField oneKeyField ∧ fromBytes ⟨0, multisigWire [oneKeyField] 1⟩ = .error .panic :=
  ⟨⟨0, _, rfl, .inl ⟨by decide, rfl⟩⟩, by decide⟩

end MultisigSpendingCondition

-- ---------------------------------------------------------------------------
-- The dispatcher on words
-- ---------------------------------------------------------------------------

namespace TransactionSpendingCondition

variable {p : Nat} {mb : UInt8} {s r : Bytes} {mode : HashMode}

/-- Every single-signature word is accepted with any suffix: the signer views the record and
the witness the 66 bytes after it. -/
theorem fromBytes_wire_singlesig {e : UInt8} {sig : Bytes}
    (hs : (mb :: s).length = spendingConditionSignerLen) (hm : HashMode.tryFrom mb = .ok mode)
    (hmode : mode = .p2pkh ∨ mode = .p2wpkh) (he : e.toNat ≤ 1) (hsig : sig.length = signatureLen)
    (hwp : mode = .p2wpkh → e.toNat = 0) :
    fromBytes ⟨p, (mb :: s) ++ (e :: sig) ++ r⟩ =
      .ok (⟨p + 103, r⟩, ⟨⟨⟨⟨p, mb :: s⟩, hs⟩⟩,
        .singlesig ⟨⟨⟨p + 37, e :: sig⟩, by simp [hsig]; rfl⟩⟩⟩) := by
  rw [List.append_assoc, fromBytes_mode hs hm, signatureFromBytes_singlesig hmode,
    if_pos ⟨he, hwp⟩]
  rfl

/-- The P2PKH vector of the source's `test_spending_condition_p2pkh`: hash mode 0, hash `0x11`
repeated, nonce 123, fee 456, and an uncompressed witness of 65 bytes `0xff`. -/
def p2pkhVector : Bytes :=
  (0 :: (List.replicate 20 0x11 ++ beBytes 8 123 ++ beBytes 8 456)) ++
    (1 :: List.replicate 65 0xff)

/-- The multi-signature word without fields is accepted with any suffix. -/
theorem fromBytes_wire_multisig_nil (hs : (mb :: s).length = spendingConditionSignerLen)
    (hm : HashMode.tryFrom mb = .ok mode) (hmode : mode = .p2sh ∨ mode = .p2wsh) :
    fromBytes ⟨p, (mb :: s) ++ multisigWire [] 0 ++ r⟩ =
      .ok (⟨p + 43, r⟩, ⟨⟨⟨⟨p, mb :: s⟩, hs⟩⟩,
        .multisig ⟨⟨p + 37, multisigWire [] 0⟩, .new, 0⟩⟩) := by
  rw [List.append_assoc, fromBytes_mode hs hm, signatureFromBytes_multisig hmode,
    MultisigSpendingCondition.fromBytes_wire_nil]
  rfl

/-- Every multi-signature word with a field ends in a panic, whatever follows it. -/
theorem fromBytes_wire_multisig_cons {f : Bytes} {fs : List Bytes} {k : Nat}
    (hs : (mb :: s).length = spendingConditionSignerLen) (hm : HashMode.tryFrom mb = .ok mode)
    (hmode : mode = .p2sh ∨ mode = .p2wsh) (hn : fs.length + 1 ≤ 16) (hf : WireAuthField f) :
    fromBytes ⟨p, (mb :: s) ++ multisigWire (f :: fs) k ++ r⟩ = .error .panic := by
  rw [List.append_assoc, fromBytes_mode hs hm, signatureFromBytes_multisig hmode,
    MultisigSpendingCondition.fromBytes_wire_cons (by omega) hf]
  rfl

/-- How the decoder treats each word of the grammar, with any suffix: a word whose hash mode
selects a single signature, or whose field count is zero, is accepted, consuming exactly the
word; every other word, a multi-signature word with a field, makes it panic. No word is
rejected with an error. -/
theorem fromBytes_wire {w : Bytes} (h : Wire w) (r : Bytes) :
    (HashMode.tryFrom (w.headD 0) = .ok .p2pkh ∨ HashMode.tryFrom (w.headD 0) = .ok .p2wpkh ∨
        beNat ((w.drop 37).take 4) = 0 →
      ∃ c, fromBytes ⟨p, w ++ r⟩ = .ok (⟨p + w.length, r⟩, c)) ∧
    (¬(HashMode.tryFrom (w.headD 0) = .ok .p2pkh ∨ HashMode.tryFrom (w.headD 0) = .ok .p2wpkh ∨
        beNat ((w.drop 37).take 4) = 0) →
      fromBytes ⟨p, w ++ r⟩ = .error .panic) := by
  cases h with
  | @singlesig mb e s sig mode hs hm hmode he hsig hwp =>
    have h := fromBytes_wire_singlesig (p := p) (r := r) hs hm hmode he hsig hwp
    rw [show p + 103 = p + ((mb :: s) ++ (e :: sig)).length by
      rw [List.length_append, hs, List.length_cons, hsig]; rfl] at h
    refine ⟨fun _ => ⟨_, h⟩, fun hn => absurd ?_ hn⟩
    rw [List.cons_append, List.headD_cons, hm]
    obtain rfl | rfl := hmode <;> simp
  | @multisig mb s mode fs k hs hm hmode hn hfs hk =>
    have hcount : beNat ((((mb :: s) ++ multisigWire fs k).drop 37).take 4) = fs.length := by
      rw [List.drop_left' (show (mb :: s).length = 37 from hs), multisigWire, List.take_left' (length_beBytes _ _), beNat_beBytes,
        Nat.mod_eq_of_lt (by omega)]
    have hsingle : ¬(HashMode.tryFrom (((mb :: s) ++ multisigWire fs k).headD 0) = .ok .p2pkh ∨
        HashMode.tryFrom (((mb :: s) ++ multisigWire fs k).headD 0) = .ok .p2wpkh) := by
      rw [List.cons_append, List.headD_cons, hm]
      obtain rfl | rfl := hmode <;> simp
    rw [hcount, ← or_assoc, or_iff_right hsingle]
    cases fs with
    | nil =>
      obtain rfl : k = 0 := Nat.le_zero.mp hk
      have h := fromBytes_wire_multisig_nil (p := p) (r := r) hs hm hmode
      rw [show p + 43 = p + ((mb :: s) ++ multisigWire [] 0).length by
        rw [List.length_append, hs]; rfl] at h
      exact ⟨fun _ => ⟨_, h⟩, fun h0 => absurd rfl h0⟩
    | cons f fs =>
      exact ⟨fun h0 => absurd h0 (Nat.succ_ne_zero _),
        fun _ => fromBytes_wire_multisig_cons hs hm hmode hn (hfs f (List.mem_cons_self _ _))⟩

theorem p2pkhVector_wire_accepted :
    Wire p2pkhVector ∧
      ((HashMode.tryFrom (p2pkhVector.headD 0) = .ok .p2pkh ∨
          HashMode.tryFrom (p2pkhVector.headD 0) = .ok .p2wpkh ∨
          beNat ((p2pkhVector.drop 37).take 4) = 0 →
        ∃ c, fromBytes ⟨0, p2pkhVector ++ []⟩ = .ok (⟨0 + p2pkhVector.length, []⟩, c)) ∧
      (¬(HashMode.tryFrom (p2pkhVector.headD 0) = .ok .p2pkh ∨
          HashMode.tryFrom (p2pkhVector.headD 0) = .ok .p2wpkh ∨
          beNat ((p2pkhVector.drop 37).take 4) = 0) →
        fromBytes ⟨0, p2pkhVector ++ []⟩ = .error .panic)) :=
  have hw : Wire p2pkhVector := .singlesig rfl rfl (.inl rfl) (by decide) rfl (by decide)
  ⟨hw, fromBytes_wire hw []⟩

/-- Every accepted input is a word of the grammar followed by the unconsumed rest. The signer
views the word's first 37 bytes, the witness is single-signature exactly when the hash mode is
P2PKH or P2WPKH, and the witness view, or the multi-signature `raw` span, is the rest of the
word. -/
theorem fromBytes_sound {b : Bytes} {t : Slice} {c : TransactionSpendingCondition}
    (h : fromBytes ⟨p, b⟩ = .ok (t, c)) :
    ∃ w, Wire w ∧ b = w ++ t.bytes ∧ t.ptr = p + w.length ∧
      c.signer.data.1 = ⟨p, w.take 37⟩ ∧
      (c.isSinglesig = true ↔ c.signer.hashMode = .ok .p2pkh ∨ c.signer.hashMode = .ok .p2wpkh) ∧
      match c.signature with
      | .singlesig sg => sg.data.1 = ⟨p + 37, w.drop 37⟩
      | .multisig m => m.raw = ⟨p + 37, w.drop 37⟩ := by
  obtain ⟨mb, s, x, mode, hs, rfl, hm, hsigner, hsig⟩ := fromBytes_inv h
  have htake (z : Bytes) : ((mb :: s) ++ z).take 37 = mb :: s := List.take_left' hs
  have hdrop (z : Bytes) : ((mb :: s) ++ z).drop 37 = z := List.drop_left' hs
  have hmode_eq : c.signer.hashMode = .ok mode := by rw [hsigner]; exact hm
  rcases mode.singlesig_or_multisig with hmode | hmode
  · obtain ⟨e, sig, hw, rfl, hptr, he, hwp, hd⟩ := signatureFromBytes_singlesig_eq_ok hmode hsig
    refine ⟨(mb :: s) ++ (e :: sig), .singlesig hs hm hmode he (Nat.succ.inj hw) hwp, by simp,
      ?_, by rw [hsigner, htake], ?_, ?_⟩
    · rw [hptr, List.length_append, hs, hw]; rfl
    · simp [isSinglesig, hd, hmode_eq, hmode]
    · rw [hd, hdrop]; rfl
  · obtain ⟨rfl, hptr, hd⟩ := signatureFromBytes_multisig_eq_ok hmode hsig
    refine ⟨(mb :: s) ++ multisigWire [] 0, .multisig hs hm hmode (by simp) (by simp) le_rfl,
      by simp [multisigWire_nil], ?_, by rw [hsigner, htake], ?_, ?_⟩
    · rw [hptr, List.length_append, hs]; rfl
    · obtain rfl | rfl := hmode <;> simp [isSinglesig, hd, hmode_eq]
    · rw [hd, hdrop]; rfl

theorem p2pkhVector_sound :
    ∃ c, fromBytes ⟨0, p2pkhVector⟩ = .ok (⟨103, []⟩, c) ∧
      ∃ w, Wire w ∧ p2pkhVector = w ++ [] ∧ 103 = 0 + w.length ∧
        c.signer.data.1 = ⟨0, w.take 37⟩ ∧
        (c.isSinglesig = true ↔ c.signer.hashMode = .ok .p2pkh ∨ c.signer.hashMode = .ok .p2wpkh) ∧
        match c.signature with
        | .singlesig sg => sg.data.1 = ⟨0 + 37, w.drop 37⟩
        | .multisig m => m.raw = ⟨0 + 37, w.drop 37⟩ :=
  have hc : fromBytes ⟨0, p2pkhVector⟩ = .ok (⟨103, []⟩, _) := rfl
  ⟨_, hc, fromBytes_sound hc⟩

/-- A P2SH condition (hash mode 2) with hash `0x11` repeated, nonce 123, fee 456, and the
one-key witness. -/
def p2shOneKey : Bytes :=
  (2 :: (List.replicate 20 0x11 ++ beBytes 8 123 ++ beBytes 8 456)) ++
    multisigWire [MultisigSpendingCondition.oneKeyField] 1

/-- A P2SH condition with the same signer record and the witness without fields. -/
def p2shNoFields : Bytes :=
  (2 :: (List.replicate 20 0x11 ++ beBytes 8 123 ++ beBytes 8 456)) ++ multisigWire [] 0

/-- The P2SH one-key condition is a word of the grammar, and decoding it panics. -/
theorem p2shOneKey_wire_panics :
    Wire p2shOneKey ∧ fromBytes ⟨0, p2shOneKey⟩ = .error .panic :=
  ⟨.multisig rfl rfl (.inl rfl) (by decide) (by simpa using ⟨0, _, rfl, .inl ⟨by decide, rfl⟩⟩)
    (by decide), by decide⟩

end TransactionSpendingCondition

end LedgerStacks
