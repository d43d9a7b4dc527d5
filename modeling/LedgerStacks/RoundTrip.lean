-- SUMMARY: The decoders against the values they denote: both round trips for auth fields and spending conditions, what the accessors leave unseen, and clearing then decoding again.
import LedgerStacks.Format

/-!
# Round trips

The two levels of `LedgerStacks/Format.lean` against the decoders of the source.

* `TransactionAuthField::from_bytes` accepts exactly the encodings of auth-field values, and
  returns the views of their key or signature.
* `TransactionSpendingCondition::from_bytes` accepts exactly the encodings of the values
  without auth fields, each followed by any rest, and returns their views; a value with auth
  fields makes it panic. What it returns denotes the value back.
* The accessors of the source show all of an accepted input but the signature bytes of a
  single signature: two accepted inputs on which they agree consumed the same bytes outside
  those 65.
* Clearing the witness of a decoded condition leaves a buffer that decodes again at the same
  place, with the same signer, and that a second clearing does not change.
-/

namespace LedgerStacks

-- ---------------------------------------------------------------------------
-- Eight-byte numbers
-- ---------------------------------------------------------------------------

theorem UInt64.ofNat_toNat (n : UInt64) : UInt64.ofNat n.toNat = n :=
  UInt64.toNat.inj (UInt64.toNat_ofNat_of_lt n.toBitVec.isLt)

/-- An 8-byte field read as a `u64` and written back is the field. -/
theorem beBytes_toNat_beNat {a : Bytes} (ha : a.length = 8) :
    beBytes 8 (UInt64.ofNat (beNat a)).toNat = a := by
  have hlt : beNat a < 2 ^ 64 := by simpa [ha] using beNat_lt a
  rw [UInt64.toNat_ofNat_of_lt hlt, ← ha, beBytes_beNat]

/-- A `u64` written in 8 bytes and read back is the number. -/
theorem ofNat_beNat_beBytes (n : UInt64) : UInt64.ofNat (beNat (beBytes 8 n.toNat)) = n := by
  rw [beNat_beBytes, Nat.mod_eq_of_lt (show n.toNat < 256 ^ 8 from n.toBitVec.isLt),
    UInt64.ofNat_toNat]

-- ---------------------------------------------------------------------------
-- The signer record
-- ---------------------------------------------------------------------------

namespace SignerRecord

/-- The accessors of a signer view read its record back. -/
theorem view_reads (r : SignerRecord) (p : Nat) :
    (r.view p).hashMode = .ok r.hashMode ∧ (r.view p).pubKeyHash.bytes = r.pubKeyHash.1 ∧
      (r.view p).nonce = .ok r.nonce ∧ (r.view p).fee = .ok r.fee := by
  have hpk := r.pubKeyHash.2
  have hbytes : (r.view p).data.1.bytes =
      r.hashMode.toU8 :: (r.pubKeyHash.1 ++ (beBytes 8 r.nonce.toNat ++ beBytes 8 r.fee.toNat)) := by
    simp [view, encode]
  refine ⟨HashMode.tryFrom_toU8 _, ?_, ?_, ?_⟩
  · simp [SpendingConditionSigner.pubKeyHash, hbytes, List.take_left' hpk]
  · rw [SpendingConditionSigner.nonce, SpendingConditionSigner.readU64_eq _ (by decide), hbytes,
      List.drop_succ_cons, List.drop_left' hpk, List.take_left' (length_beBytes _ _),
      ofNat_beNat_beBytes]
  · rw [SpendingConditionSigner.fee, SpendingConditionSigner.readU64_eq _ (by decide), hbytes,
      List.drop_succ_cons, ← List.append_assoc, List.drop_left' (by simp [hpk]),
      List.take_of_length_le (by simp), ofNat_beNat_beBytes]

/-- Every 37 bytes whose first byte names a hash mode are the record of a value. -/
theorem exists_encode {mb : UInt8} {s : Bytes} {mode : HashMode}
    (hs : (mb :: s).length = spendingConditionSignerLen) (hm : HashMode.tryFrom mb = .ok mode) :
    ∃ r : SignerRecord, r.hashMode = mode ∧ r.encode = mb :: s := by
  have hs36 : s.length = 36 := by simpa [spendingConditionSignerLen] using hs
  have h8 : (s.drop 20).take 8 ++ s.drop 28 = s.drop 20 := by
    rw [show s.drop 28 = (s.drop 20).drop 8 by simp [List.drop_drop]]
    exact List.take_append_drop _ _
  refine ⟨⟨mode, ⟨s.take 20, by simp [hs36]⟩, .ofNat (beNat ((s.drop 20).take 8)),
    .ofNat (beNat (s.drop 28))⟩, rfl, ?_⟩
  show mode.toU8 :: (s.take 20 ++ beBytes 8 _ ++ beBytes 8 _) = mb :: s
  rw [HashMode.toU8_of_tryFrom hm, beBytes_toNat_beNat (by simp [hs36]),
    beBytes_toNat_beNat (by simp [hs36]), List.append_assoc, h8, List.take_append_drop]

theorem view_eq {r : SignerRecord} {mb : UInt8} {s : Bytes} (henc : r.encode = mb :: s)
    (hs : (mb :: s).length = spendingConditionSignerLen) (p : Nat) :
    r.view p = ⟨⟨⟨p, mb :: s⟩, hs⟩⟩ := by
  simp only [view, henc]

end SignerRecord

-- ---------------------------------------------------------------------------
-- Auth fields
-- ---------------------------------------------------------------------------

theorem UInt8.eq_of_toNat_le_three {t : UInt8} (h : t.toNat ≤ 3) :
    t = 0 ∨ t = 1 ∨ t = 2 ∨ t = 3 := by
  rcases (by omega : t.toNat = 0 ∨ t.toNat = 1 ∨ t.toNat = 2 ∨ t.toNat = 3) with h | h | h | h
  exacts [.inl (UInt8.toNat.inj (b := 0) h), .inr (.inl (UInt8.toNat.inj (b := 1) h)),
    .inr (.inr (.inl (UInt8.toNat.inj (b := 2) h))), .inr (.inr (.inr (UInt8.toNat.inj (b := 3) h)))]

/-- Every auth-field value is a field of the wire grammar. -/
theorem AuthField.wire_encode (f : AuthField) : WireAuthField f.encode := by
  cases f with
  | publicKey enc key => cases enc <;> exact ⟨_, _, rfl, .inl ⟨Nat.le_of_ble_eq_true rfl, key.2⟩⟩
  | signature enc sig =>
    cases enc
    · exact ⟨_, _, rfl, .inr ⟨.inl rfl, sig.2⟩⟩
    · exact ⟨_, _, rfl, .inr ⟨.inr rfl, sig.2⟩⟩

namespace TransactionAuthField

variable {p : Nat} {x : Bytes} {t : Slice} {fld : TransactionAuthField}

/-- An encoded field decodes to its value, viewed after its tag, with any rest. -/
theorem fromBytes_encode (f : AuthField) (p : Nat) (r : Bytes) :
    fromBytes ⟨p, f.encode ++ r⟩ = .ok (⟨p + f.encode.length, r⟩, f.view (p + 1)) := by
  cases f with
  | publicKey enc key =>
    have h := fromBytes_publicKey (p := p) (r := r)
      (t := (AuthField.publicKey enc key).id.toU8)
      (by cases enc <;> exact Nat.le_of_ble_eq_true rfl) key.2
    rw [show p + 1 + pubkeyLen = p + (AuthField.publicKey enc key).encode.length by
      simp [AuthField.encode, AuthField.payload, key.2]; omega] at h
    cases enc <;> exact h
  | signature enc sig =>
    have h := fromBytes_signature (p := p) (r := r)
      (t := (AuthField.signature enc sig).id.toU8) (by cases enc; exacts [.inl rfl, .inr rfl]) sig.2
    rw [show p + 1 + signatureLen = p + (AuthField.signature enc sig).encode.length by
      simp [AuthField.encode, AuthField.payload, sig.2]; omega] at h
    cases enc <;> exact h

/-- What the decoder accepts starts with the encoding of a field. -/
theorem exists_encode_of_fromBytes {a : Slice × TransactionAuthField}
    (h : fromBytes ⟨p, x⟩ = .ok a) : ∃ (f : AuthField) (r : Bytes), x = f.encode ++ r := by
  cases x with
  | nil => rw [fromBytes_nil] at h; cases h
  | cons tag rest =>
    by_cases h3 : tag.toNat ≤ 3
    · have key (n : Nat) (mk : Blob n → AuthField) (hmk : ∀ y, (mk y).encode = tag :: y.1)
          (hshort : rest.length < n → fromBytes ⟨p, tag :: rest⟩ = .error .eof) :
          ∃ (f : AuthField) (r : Bytes), tag :: rest = f.encode ++ r := by
        rcases short_or_append ⟨p + 1, rest⟩ n with hr | ⟨y, r, hy, hyn⟩
        · rw [hshort hr] at h; cases h
        · exact ⟨mk ⟨y, hyn⟩, r, by rw [hmk]; exact congrArg (List.cons tag) hy⟩
      obtain rfl | rfl | rfl | rfl := UInt8.eq_of_toNat_le_three h3
      · exact key _ (.publicKey .compressed) (fun _ => rfl) (fromBytes_publicKey_short (by decide))
      · exact key _ (.publicKey .uncompressed) (fun _ => rfl) (fromBytes_publicKey_short (by decide))
      · exact key _ (.signature .compressed) (fun _ => rfl)
          (fromBytes_signature_short (.inl (by decide)))
      · exact key _ (.signature .uncompressed) (fun _ => rfl)
          (fromBytes_signature_short (.inr (by decide)))
    · rw [fromBytes_badTag (by omega)] at h; cases h

theorem eq_view_of_fromBytes (h : fromBytes ⟨p, x⟩ = .ok (t, fld)) :
    ∃ f : AuthField, fld = f.view (p + 1) ∧ x = f.encode ++ t.bytes ∧
      t.ptr = p + f.encode.length := by
  obtain ⟨f, r, rfl⟩ := exists_encode_of_fromBytes h
  rw [fromBytes_encode] at h
  obtain ⟨rfl, rfl⟩ := Prod.mk.inj (Except.ok.inj h)
  exact ⟨f, rfl, rfl, rfl⟩

/-- The auth-field decoder accepts exactly the encodings of auth-field values, each followed
by any rest: the tag names the kind and the key encoding, and the returned field views the
key or signature after the tag. -/
theorem fromBytes_ok_iff_encode :
    fromBytes ⟨p, x⟩ = .ok (t, fld) ↔
      ∃ f : AuthField, fld = f.view (p + 1) ∧ x = f.encode ++ t.bytes ∧
        t.ptr = p + f.encode.length := by
  refine ⟨eq_view_of_fromBytes, ?_⟩
  rintro ⟨f, rfl, rfl, ht⟩
  rw [fromBytes_encode, ← ht]

/-- The decoding half of the field loop: `n` fields decoded one after another are exactly `n`
encoded fields, each viewed where it stands, followed by the rest. -/
theorem fromBytesCount_ok_iff {n q : Nat} {x : Bytes} {flds : List TransactionAuthField} :
    fromBytesCount n ⟨q, x⟩ = .ok (t, flds) ↔
      ∃ fs : List AuthField, fs.length = n ∧ flds = AuthField.viewsFrom q fs ∧
        x = (fs.map AuthField.encode).flatten ++ t.bytes ∧
        t.ptr = q + (fs.map AuthField.encode).flatten.length := by
  induction n generalizing q x t flds with
  | zero =>
    constructor
    · intro h
      obtain ⟨rfl, rfl⟩ := Prod.mk.inj (Except.ok.inj h)
      exact ⟨[], rfl, rfl, rfl, rfl⟩
    · rintro ⟨fs, hfs, rfl, rfl, ht⟩
      obtain rfl := List.eq_nil_of_length_eq_zero hfs
      obtain ⟨q', x'⟩ := t
      simp only [List.map_nil, List.flatten_nil, List.length_nil, Nat.add_zero] at ht
      subst ht
      rfl
  | succ n ih =>
    rw [fromBytesCount_succ]
    constructor
    · intro h
      obtain ⟨⟨s, fld⟩, hd, h⟩ := Except.bind_eq_ok.mp h
      obtain ⟨⟨t', fs'⟩, hc, h⟩ := Except.bind_eq_ok.mp h
      obtain ⟨rfl, rfl⟩ := Prod.mk.inj (Except.ok.inj h)
      obtain ⟨f, rfl, rfl, hs⟩ := eq_view_of_fromBytes hd
      obtain ⟨q', x'⟩ := s
      simp only at hs
      subst hs
      obtain ⟨fs, hlen, rfl, rfl, ht⟩ := ih.mp hc
      refine ⟨f :: fs, by simp [hlen], rfl, by simp, ?_⟩
      simp only [List.map_cons, List.flatten_cons, List.length_append] at ht ⊢
      omega
    · rintro ⟨_ | ⟨f, fs⟩, hfs, rfl, rfl, ht⟩
      · cases hfs
      simp only [List.map_cons, List.flatten_cons, List.length_append, List.length_cons] at ht hfs
      rw [List.map_cons, List.flatten_cons, List.append_assoc, fromBytes_encode, Except.bind_ok,
        (ih (t := t)).mpr ⟨fs, by omega, rfl, rfl, by omega⟩]
      rfl

end TransactionAuthField

-- ---------------------------------------------------------------------------
-- What a decoded condition denotes
-- ---------------------------------------------------------------------------

theorem Witness.view_reads (w : Witness) (q : Nat) : (w.view q).Reads w := by
  cases w with
  | singlesig enc sig => cases enc <;> exact ⟨rfl, rfl⟩
  | multisig fields required => exact ⟨AuthField.map_toValue_viewsFrom _ _, rfl⟩

/-- The decoded condition of a value denotes the value. -/
theorem SpendingCondition.view_reads (v : SpendingCondition) (p : Nat) : (v.view p).Reads v :=
  have h := v.signer.view_reads p
  ⟨h.1, h.2.1, h.2.2.1, h.2.2.2, v.witness.view_reads _⟩

/-- Views on which the signer's accessors agree are views of the same signer record. -/
theorem SpendingCondition.signer_eq_of_observed {v v' : SpendingCondition} {p p' : Nat}
    (h : (v.view p).observed = (v'.view p').observed) : v.signer = v'.signer := by
  obtain ⟨hm, hk, hn, hf⟩ := v.signer.view_reads p
  obtain ⟨hm', hk', hn', hf'⟩ := v'.signer.view_reads p'
  simp only [TransactionSpendingCondition.observed, TransactionSpendingCondition.nonce,
    TransactionSpendingCondition.fee, TransactionSpendingCondition.signerPubKeyHash,
    SpendingCondition.view, Observed.mk.injEq, hm, hm', hk, hk', hn, hn', hf, hf'] at h
  obtain ⟨hmode, hkey, hnonce, hfee, -⟩ := h
  obtain ⟨⟨m, k, n, f⟩, _, _⟩ := v
  obtain ⟨⟨m', k', n', f'⟩, _, _⟩ := v'
  simp only [SignerRecord.mk.injEq]
  exact ⟨Except.ok.inj hmode, Subtype.ext hkey, hnonce, hfee⟩

-- ---------------------------------------------------------------------------
-- The spending condition, both ways
-- ---------------------------------------------------------------------------

theorem TransactionPublicKeyEncoding.exists_toU8 {e : UInt8} (he : e.toNat ≤ 1) :
    ∃ enc : TransactionPublicKeyEncoding, enc.toU8 = e ∧ (enc = .compressed ↔ e.toNat = 0) := by
  rcases (by omega : e.toNat = 0 ∨ e.toNat = 1) with h | h
  · exact ⟨.compressed, (UInt8.toNat.inj (b := 0) h).symm, by simp [h]⟩
  · exact ⟨.uncompressed, (UInt8.toNat.inj (b := 1) h).symm, by simp [h]⟩

namespace TransactionSpendingCondition

variable {p : Nat} {b : Bytes} {t : Slice} {c : TransactionSpendingCondition}

theorem length_encode_singlesig (sr : SignerRecord) (enc : TransactionPublicKeyEncoding)
    (sig : Blob signatureLen) : (sr.encode ++ (Witness.singlesig enc sig).encode).length = 103 := by
  simp [Witness.encode, sr.length_encode, sig.2, spendingConditionSignerLen, signatureLen]

/-- A value without auth fields decodes, with any rest, to its views. -/
theorem fromBytes_view (v : SpendingCondition) (hv : v.witness.authFields = []) (p : Nat)
    (r : Bytes) : fromBytes ⟨p, v.encode ++ r⟩ = .ok (⟨p + v.encode.length, r⟩, v.view p) := by
  obtain ⟨sr, w, hfit⟩ := v
  cases w with
  | singlesig enc sig =>
    obtain ⟨hmode, hvalid⟩ := hfit
    have hwp : sr.hashMode = .p2wpkh → enc.toU8.toNat = 0 := by
      intro hm
      cases enc
      · rfl
      · simp [hm] at hvalid
    have h := fromBytes_wire_singlesig (p := p) (r := r)
      (s := sr.pubKeyHash.1 ++ beBytes 8 sr.nonce.toNat ++ beBytes 8 sr.fee.toNat)
      sr.length_encode (HashMode.tryFrom_toU8 _) hmode (by cases enc <;> decide) sig.2 hwp
    rwa [show p + 103 = p + (sr.encode ++ (Witness.singlesig enc sig).encode).length by
      rw [length_encode_singlesig]] at h
  | multisig fields required =>
    obtain ⟨hmode, hreq⟩ := hfit
    obtain ⟨l, hl⟩ := fields
    obtain rfl : l = [] := hv
    obtain rfl : required = 0 := UInt16.toNat.inj (Nat.le_zero.mp hreq)
    have h := fromBytes_wire_multisig_nil (p := p) (r := r)
      (s := sr.pubKeyHash.1 ++ beBytes 8 sr.nonce.toNat ++ beBytes 8 sr.fee.toNat)
      sr.length_encode (HashMode.tryFrom_toU8 _) hmode
    rwa [show p + 43 = p + (sr.encode ++ multisigWire [] 0).length by
      simp [sr.length_encode, multisigWire_nil, spendingConditionSignerLen]] at h

/-- A value with auth fields makes the decoder panic, whatever follows it. -/
theorem fromBytes_encode_panic (v : SpendingCondition) (p : Nat) (r : Bytes)
    (hv : v.witness.authFields ≠ []) : fromBytes ⟨p, v.encode ++ r⟩ = .error .panic := by
  obtain ⟨sr, w, hfit⟩ := v
  cases w with
  | singlesig => exact absurd rfl hv
  | multisig fields required =>
    obtain ⟨l, hl⟩ := fields
    cases l with
    | nil => exact absurd rfl hv
    | cons f fs =>
      exact fromBytes_wire_multisig_cons sr.length_encode (HashMode.tryFrom_toU8 _) hfit.1
        (by simpa using hl) (AuthField.wire_encode f)

/-- Every accepted input is the encoding of a value without auth fields, followed by the
rest, and the decoder returns that value's views. -/
theorem eq_view_of_fromBytes (h : fromBytes ⟨p, b⟩ = .ok (t, c)) :
    ∃ v : SpendingCondition, v.witness.authFields = [] ∧ c = v.view p ∧
      b = v.encode ++ t.bytes ∧ t.ptr = p + v.encode.length := by
  obtain ⟨mb, s, x, mode, hs, rfl, hm, hsigner, hsig⟩ := fromBytes_inv h
  obtain ⟨sr, rfl, hsr⟩ := SignerRecord.exists_encode hs hm
  obtain ⟨csigner, csig⟩ := c
  obtain rfl : csigner = sr.view p := hsigner.trans (SignerRecord.view_eq hsr hs p).symm
  rcases sr.hashMode.singlesig_or_multisig with hmode | hmode
  · obtain ⟨e, sig, hw, rfl, hptr, he, hwp, rfl⟩ := signatureFromBytes_singlesig_eq_ok hmode hsig
    obtain ⟨enc, rfl, hcomp⟩ := TransactionPublicKeyEncoding.exists_toU8 he
    have hvalid : enc.isValidHashMode sr.hashMode = true := by
      cases enc
      · simp
      · simpa using fun hp => absurd (hcomp.2 (hwp hp)) (by decide)
    refine ⟨⟨sr, .singlesig enc ⟨sig, Nat.succ.inj hw⟩, hmode, hvalid⟩, rfl, rfl,
      by simp [SpendingCondition.encode, Witness.encode, hsr], ?_⟩
    rw [hptr, SpendingCondition.encode, length_encode_singlesig]
    rfl
  · obtain ⟨rfl, hptr, rfl⟩ := signatureFromBytes_multisig_eq_ok hmode hsig
    refine ⟨⟨sr, .multisig .new 0, hmode, le_rfl⟩, rfl, rfl, ?_, ?_⟩
    · rw [SpendingCondition.encode, hsr, List.append_assoc]
      rfl
    · rw [hptr, SpendingCondition.encode, List.length_append, sr.length_encode]
      rfl

/-- `TransactionSpendingCondition::from_bytes` accepts exactly the encodings of the values
without auth fields, each followed by any rest, and returns the views of that value: the
signer record and the witness in place, the fields of a multi-signature witness viewed where
they stand. -/
theorem fromBytes_ok_iff_view :
    fromBytes ⟨p, b⟩ = .ok (t, c) ↔
      ∃ v : SpendingCondition, v.witness.authFields = [] ∧ c = v.view p ∧
        b = v.encode ++ t.bytes ∧ t.ptr = p + v.encode.length := by
  refine ⟨eq_view_of_fromBytes, ?_⟩
  rintro ⟨v, hv, rfl, rfl, ht⟩
  rw [fromBytes_view v hv, ← ht]

/-- Decoding the encoding of a value, with any rest, consumes exactly the encoding and returns
a condition that denotes the value (hash mode, key hash, nonce and fee through the signer's
accessors, and the key encoding and the signature bytes of the witness view, or the fields and
the required count) when the value has no auth fields; with auth fields it panics. -/
theorem fromBytes_encode_reads (v : SpendingCondition) (p : Nat) (r : Bytes) :
    (v.witness.authFields = [] → ∃ c, fromBytes ⟨p, v.encode ++ r⟩ =
        .ok (⟨p + v.encode.length, r⟩, c) ∧ c.Reads v) ∧
      (v.witness.authFields ≠ [] → fromBytes ⟨p, v.encode ++ r⟩ = .error .panic) :=
  ⟨fun hv => ⟨_, fromBytes_view v hv p r, v.view_reads p⟩, fromBytes_encode_panic v p r⟩

/-- What the accessors of the source cannot see. Two accepted inputs on which every accessor
returns the same consumed the same bytes, but that the 65 signature bytes of a
single-signature witness may differ: they are the only part of an accepted input that no
accessor reads. -/
theorem consumed_eq_of_observed {p' : Nat} {b' : Bytes} {t' : Slice}
    {c' : TransactionSpendingCondition}
    (h : fromBytes ⟨p, b⟩ = .ok (t, c)) (h' : fromBytes ⟨p', b'⟩ = .ok (t', c'))
    (hobs : c.observed = c'.observed) :
    ∃ w w', b = w ++ t.bytes ∧ b' = w' ++ t'.bytes ∧
      (c.isSinglesig = false → w = w') ∧
      (c.isSinglesig = true → ∃ pre sig sig', w = pre ++ sig ∧ w' = pre ++ sig' ∧
        pre.length = spendingConditionSignerLen + 1 ∧ sig.length = signatureLen ∧
        sig'.length = signatureLen) := by
  obtain ⟨⟨sr, w, hfit⟩, hv, rfl, rfl, -⟩ := eq_view_of_fromBytes h
  obtain ⟨⟨sr', w', hfit'⟩, hv', rfl, rfl, -⟩ := eq_view_of_fromBytes h'
  obtain rfl : sr = sr' := SpendingCondition.signer_eq_of_observed hobs
  have hkind := congrArg Observed.isSinglesig hobs
  refine ⟨_, _, rfl, rfl, ?_⟩
  cases w with
  | singlesig enc sig =>
    cases w' with
    | multisig => cases hkind
    | singlesig enc' sig' =>
      have henc := congrArg Observed.keyEncoding hobs
      simp only [TransactionSpendingCondition.observed, SpendingCondition.view, Witness.view,
        Option.some.injEq, (Witness.view_reads (.singlesig enc sig) _).1,
        (Witness.view_reads (.singlesig enc' sig') _).1, Except.ok.injEq] at henc
      subst henc
      refine ⟨fun hf => (by cases hf), fun _ => ⟨sr.encode ++ [enc.toU8], sig.1, sig'.1, ?_, ?_,
        by simp [sr.length_encode], sig.2, sig'.2⟩⟩ <;>
        simp [SpendingCondition.encode, Witness.encode]
  | multisig fields required =>
    cases w' with
    | singlesig => cases hkind
    | multisig fields' required' =>
      obtain ⟨l, hl⟩ := fields
      obtain ⟨l', hl'⟩ := fields'
      obtain rfl : l = [] := hv
      obtain rfl : l' = [] := hv'
      obtain rfl : required = 0 := UInt16.toNat.inj (Nat.le_zero.mp hfit.2)
      obtain rfl : required' = 0 := UInt16.toNat.inj (Nat.le_zero.mp hfit'.2)
      exact ⟨fun _ => rfl, fun hs => by cases hs⟩

/-- The source's P2PKH vector as a value: hash `0x11` repeated, nonce 123, fee 456, and an
uncompressed witness of 65 bytes `0xff`. -/
def p2pkhValue : SpendingCondition :=
  ⟨⟨.p2pkh, ⟨List.replicate 20 0x11, rfl⟩, 123, 456⟩,
    .singlesig .uncompressed ⟨List.replicate 65 0xff, rfl⟩, .inl rfl, rfl⟩

/-- The source's P2PKH vector, and the same bytes with the last signature byte zero: every
accessor returns the same on the two, and they differ in the signature alone. -/
theorem p2pkhVector_observed_consumed :
    ∃ w w', p2pkhVector = w ++ [] ∧ p2pkhVector.take 102 ++ [0] = w' ++ [] ∧
      ((p2pkhValue.view 0).isSinglesig = false → w = w') ∧
      ((p2pkhValue.view 0).isSinglesig = true → ∃ pre sig sig', w = pre ++ sig ∧
        w' = pre ++ sig' ∧ pre.length = spendingConditionSignerLen + 1 ∧
        sig.length = signatureLen ∧ sig'.length = signatureLen) :=
  have h : fromBytes ⟨0, p2pkhVector⟩ = .ok (⟨103, []⟩, p2pkhValue.view 0) := rfl
  have h' : fromBytes ⟨0, p2pkhVector.take 102 ++ [0]⟩ = .ok (⟨103, []⟩, _) := rfl
  consumed_eq_of_observed h h' (by decide)

-- ---------------------------------------------------------------------------
-- Clearing, then decoding again
-- ---------------------------------------------------------------------------

/-- The signature of a single-signature witness after clearing: zeros, but for the last byte
the clearing does not reach. -/
def clearedSig (sig : Blob signatureLen) : Blob signatureLen :=
  ⟨List.replicate 64 0 ++ sig.1.drop 64, by simp [sig.2, signatureLen]⟩

theorem clearedSig_idem (sig : Blob signatureLen) : clearedSig (clearedSig sig) = clearedSig sig :=
  Subtype.ext (by simp [clearedSig])

/-- Clearing a single-signature witness that stands after the record `sr`, behind `a`, writes
the witness of a compressed key with the cleared signature. -/
theorem clearSignature_singlesig_view (a : Bytes) (sr : SignerRecord)
    (enc : TransactionPublicKeyEncoding) (sig : Blob signatureLen) (r : Bytes) :
    ((Witness.singlesig enc sig).view (a.length + spendingConditionSignerLen)).clearSignature
        (a ++ (sr.encode ++ (Witness.singlesig enc sig).encode ++ r)) =
      a ++ (sr.encode ++ (Witness.singlesig .compressed (clearedSig sig)).encode ++ r) := by
  have h := @SinglesigSpendingCondition.clearSignature_eq (a ++ sr.encode) r enc.toU8 sig.1
    (by simp [sig.2]; rfl)
  rw [List.length_append, sr.length_encode] at h
  simp only [SpendingConditionSignature.clearSignature, Witness.view, Witness.encode,
    List.append_assoc] at h ⊢
  rw [h]
  simp only [clearedSig, List.append_assoc, List.cons_append]
  rfl

/-- Clearing the multi-signature witness without fields changes nothing: its four count bytes
are zero already. -/
theorem clearSignature_multisig_view (a : Bytes) (sr : SignerRecord) (r : Bytes) :
    ((Witness.multisig .new 0).view (a.length + spendingConditionSignerLen)).clearSignature
        (a ++ (sr.encode ++ (Witness.multisig .new 0).encode ++ r)) =
      a ++ (sr.encode ++ (Witness.multisig .new 0).encode ++ r) := by
  have h := MultisigSpendingCondition.clearSignature_eq (a ++ sr.encode) (multisigWire [] 0) r
    .new 0
  rw [List.length_append, sr.length_encode] at h
  simp only [SpendingConditionSignature.clearSignature, Witness.view, Witness.encode,
    List.append_assoc] at h ⊢
  exact h

/-- Clearing the witness of an accepted input leaves a buffer that decodes again at the same
place, to the same rest and the same signer, and that clearing the new witness leaves as it is:
canonicalization is stable. -/
theorem fromBytes_after_clearSignature {pre : Bytes} (h : fromBytes ⟨pre.length, b⟩ = .ok (t, c)) :
    ∃ b' c', c.signature.clearSignature (pre ++ b) = pre ++ b' ∧
      fromBytes ⟨pre.length, b'⟩ = .ok (t, c') ∧ c'.signer = c.signer ∧
      c'.signature.clearSignature (pre ++ b') = pre ++ b' := by
  obtain ⟨⟨sr, w, hfit⟩, hv, rfl, rfl, ht⟩ := eq_view_of_fromBytes h
  obtain ⟨q, r⟩ := t
  obtain rfl : q = pre.length + (sr.encode ++ w.encode).length := ht
  cases w with
  | singlesig enc sig =>
    let v' : SpendingCondition := ⟨sr, .singlesig .compressed (clearedSig sig), hfit.1, by simp⟩
    have hlen : v'.encode.length = 103 := length_encode_singlesig _ _ _
    have hdec : fromBytes ⟨pre.length, v'.encode ++ r⟩ = .ok (⟨pre.length +
        (sr.encode ++ (Witness.singlesig enc sig).encode).length, r⟩, v'.view pre.length) := by
      rw [fromBytes_view v' rfl, hlen, length_encode_singlesig]
    have hclear' := clearSignature_singlesig_view pre sr .compressed (clearedSig sig) r
    rw [clearedSig_idem] at hclear'
    exact ⟨_, _, clearSignature_singlesig_view pre sr enc sig r, hdec, rfl, hclear'⟩
  | multisig fields required =>
    obtain ⟨l, hl⟩ := fields
    obtain rfl : l = [] := hv
    obtain rfl : required = 0 := UInt16.toNat.inj (Nat.le_zero.mp hfit.2)
    exact ⟨_, _, clearSignature_multisig_view pre sr r, h, rfl,
      clearSignature_multisig_view pre sr r⟩

theorem p2pkhVector_clear_decode_again :
    ∃ c, fromBytes ⟨([] : Bytes).length, p2pkhVector⟩ = .ok (⟨103, []⟩, c) ∧
      ∃ b' c', c.signature.clearSignature ([] ++ p2pkhVector) = [] ++ b' ∧
        fromBytes ⟨([] : Bytes).length, b'⟩ = .ok (⟨103, []⟩, c') ∧ c'.signer = c.signer ∧
        c'.signature.clearSignature ([] ++ b') = [] ++ b' :=
  have hc : fromBytes ⟨([] : Bytes).length, p2pkhVector⟩ = .ok (⟨103, []⟩, _) := rfl
  ⟨_, hc, fromBytes_after_clearSignature hc⟩

end TransactionSpendingCondition

end LedgerStacks
