-- SUMMARY: How decoding fails: every outcome of the auth-field decoder, and the exact set of inputs on which the spending-condition decoder panics.
import LedgerStacks.Wire

/-!
# Failures

The decoders return nom errors on malformed input, with one exception. The multi-signature
field loop stores every decoded field with `auth_fields[i] = tx` into an empty `ArrayVec`, and
it has no check of the field count against the capacity of 16 before the loop. So the
spending-condition decoder panics on exactly the inputs whose hash mode is P2SH or P2WSH,
whose field count is not zero, and whose first auth field is well formed; what follows that
field, and how large the count is, plays no part.
-/

namespace LedgerStacks

/-- Everything the auth-field decoder can do: decode a field of the grammar, consuming exactly
that field, or fail at the end of input, or fail on a tag outside 0..3. It never panics. -/
theorem TransactionAuthField.fromBytes_cases (p : Nat) (x : Bytes) :
    (∃ f r fld, WireAuthField f ∧ x = f ++ r ∧ fromBytes ⟨p, x⟩ = .ok (⟨p + f.length, r⟩, fld)) ∨
      fromBytes ⟨p, x⟩ = .error .eof ∨ fromBytes ⟨p, x⟩ = .error (.error .parserUnexpectedValue) := by
  cases x with
  | nil => exact .inr (.inl rfl)
  | cons t r =>
    by_cases h1 : t.toNat ≤ 1
    · rcases short_or_append ⟨p + 1, r⟩ pubkeyLen with hr | ⟨y, r', rfl, hy⟩
      · exact .inr (.inl (fromBytes_publicKey_short h1 hr))
      · have hf : WireAuthField (t :: y) := ⟨t, y, rfl, .inl ⟨h1, hy⟩⟩
        obtain ⟨fld, hfld⟩ := fromBytes_of_wire (p := p) (r := r') hf
        exact .inl ⟨t :: y, r', fld, hf, rfl, hfld⟩
    · by_cases h3 : t.toNat ≤ 3
      · have ht : t.toNat = 2 ∨ t.toNat = 3 := by omega
        rcases short_or_append ⟨p + 1, r⟩ signatureLen with hr | ⟨y, r', rfl, hy⟩
        · exact .inr (.inl (fromBytes_signature_short ht hr))
        · have hf : WireAuthField (t :: y) := ⟨t, y, rfl, .inr ⟨ht, hy⟩⟩
          obtain ⟨fld, hfld⟩ := fromBytes_of_wire (p := p) (r := r') hf
          exact .inl ⟨t :: y, r', fld, hf, rfl, hfld⟩
      · exact .inr (.inr (fromBytes_badTag (by omega)))

namespace MultisigSpendingCondition

variable {p : Nat} {x : Bytes}

/-- The multi-signature decoder panics exactly when the field count is not zero and the first
field is well formed. -/
theorem fromBytes_panic_iff :
    fromBytes ⟨p, x⟩ = .error .panic ↔
      ∃ c f r, x = c ++ (f ++ r) ∧ c.length = 4 ∧ 0 < beNat c ∧ WireAuthField f := by
  constructor
  · intro h
    rcases short_or_append ⟨p, x⟩ 4 with hs | ⟨c, y, rfl, hc⟩
    · rw [fromBytes_short hs] at h; cases h
    by_cases h0 : beNat c = 0
    · rcases short_or_append ⟨p + 4, y⟩ 2 with hs | ⟨k, r, rfl, hk⟩
      · rw [fromBytes_noFields_short hc h0 hs] at h; cases h
      · rw [fromBytes_noFields hc h0 hk] at h; split at h <;> cases h
    · rw [fromBytes_fields hc (Nat.pos_of_ne_zero h0)] at h
      rcases TransactionAuthField.fromBytes_cases (p + 4) y with
        ⟨f, r, fld, hf, rfl, -⟩ | he | he
      · exact ⟨c, f, r, rfl, hc, Nat.pos_of_ne_zero h0, hf⟩
      · rw [he] at h; cases h
      · rw [he] at h; cases h
  · rintro ⟨c, f, r, rfl, hc, hn, hf⟩
    obtain ⟨fld, hfld⟩ := TransactionAuthField.fromBytes_of_wire (p := p + 4) (r := r) hf
    rw [fromBytes_fields hc hn, hfld]
    rfl

end MultisigSpendingCondition

namespace TransactionSpendingCondition

variable {p : Nat} {b : Bytes}

/-- The spending-condition decoder panics on exactly the inputs whose signer record names P2SH
or P2WSH, whose field count is not zero, and whose first auth field is well formed. Every
other input it accepts or rejects with a nom error. -/
theorem fromBytes_eq_panic :
    fromBytes ⟨p, b⟩ = .error .panic ↔
      ∃ mb s mode c f r, b = (mb :: s) ++ (c ++ (f ++ r)) ∧
        (mb :: s).length = spendingConditionSignerLen ∧ HashMode.tryFrom mb = .ok mode ∧
        (mode = .p2sh ∨ mode = .p2wsh) ∧ c.length = 4 ∧ 0 < beNat c ∧ WireAuthField f := by
  constructor
  · intro h
    rcases short_or_append ⟨p, b⟩ spendingConditionSignerLen with hb | ⟨y, x, rfl, hy⟩
    · rw [fromBytes_short hb] at h; cases h
    obtain ⟨mb, s, rfl⟩ : ∃ mb s, y = mb :: s := by
      cases y with
      | nil => cases hy
      | cons mb s => exact ⟨mb, s, rfl⟩
    cases hm : HashMode.tryFrom mb with
    | error err => rw [fromBytes_badMode hy hm] at h; cases h
    | ok mode =>
      rw [fromBytes_mode hy hm] at h
      rcases mode.singlesig_or_multisig with hmode | hmode
      · rcases short_or_append ⟨p + spendingConditionSignerLen, x⟩ singleSpendingConditionLen with
          hx | ⟨z, r, rfl, hz⟩
        · rw [signatureFromBytes_singlesig_short hmode hx] at h; cases h
        · obtain ⟨e, sig, rfl⟩ : ∃ e sig, z = e :: sig := by
            cases z with
            | nil => cases hz
            | cons e sig => exact ⟨e, sig, rfl⟩
          rw [signatureFromBytes_singlesig hmode hz] at h
          split at h <;> cases h
      · rw [signatureFromBytes_multisig hmode] at h
        cases hms : MultisigSpendingCondition.fromBytes ⟨p + spendingConditionSignerLen, x⟩ with
        | ok d => rw [hms] at h; cases h
        | error err =>
          rw [hms] at h
          cases h
          obtain ⟨c, f, r, rfl, hc, hn, hf⟩ := MultisigSpendingCondition.fromBytes_panic_iff.mp hms
          exact ⟨mb, s, mode, c, f, r, rfl, hy, hm, hmode, hc, hn, hf⟩
  · rintro ⟨mb, s, mode, c, f, r, rfl, hs, hm, hmode, hc, hn, hf⟩
    rw [fromBytes_mode hs hm, signatureFromBytes_multisig hmode,
      MultisigSpendingCondition.fromBytes_panic_iff.mpr ⟨c, f, r, rfl, hc, hn, hf⟩]
    rfl

/-- A P2SH signer record (hash mode 2, then 36 zero bytes), a field count of 17, and one
well-formed field. -/
def p2shCount17 : Bytes :=
  (2 :: List.replicate 36 0) ++ (beBytes 4 17 ++ MultisigSpendingCondition.oneKeyField)

/-- A field count of 17 is not rejected before the fields are read: the decoder reads the
first field, and storing it panics. -/
theorem p2shCount17_panics : fromBytes ⟨0, p2shCount17⟩ = .error .panic := by
  decide

end TransactionSpendingCondition

-- ---------------------------------------------------------------------------
-- Parser errors
-- ---------------------------------------------------------------------------

theorem HashMode.tryFrom_eq_error {b : UInt8} {e : ParserError} :
    HashMode.tryFrom b = .error e ↔ 3 < b.toNat ∧ e = .parserUnexpectedValue := by
  by_cases h3 : b.toNat ≤ 3
  · rcases (by omega : b.toNat = 0 ∨ b.toNat = 1 ∨ b.toNat = 2 ∨ b.toNat = 3) with h | h | h | h <;>
      simp [HashMode.tryFrom, h]
  · obtain ⟨n, hn⟩ : ∃ n, b.toNat = n + 4 := ⟨b.toNat - 4, by omega⟩
    have he : HashMode.tryFrom b = .error .parserUnexpectedValue := by
      unfold HashMode.tryFrom
      rw [hn]
      rfl
    rw [he]
    simp only [Except.error.injEq, eq_comm, iff_and_self]
    intro
    omega

/-- The auth-field decoder fails with a parser error only on a tag above 3. -/
theorem TransactionAuthField.fromBytes_eq_error_iff {q : Nat} {y : Bytes} {e : ParserError} :
    fromBytes ⟨q, y⟩ = .error (.error e) ↔
      e = .parserUnexpectedValue ∧ ∃ t r, y = t :: r ∧ 3 < t.toNat := by
  constructor
  · intro h
    cases y with
    | nil => rw [fromBytes_nil] at h; cases h
    | cons t r =>
      by_cases h1 : t.toNat ≤ 1
      · rcases short_or_append ⟨q + 1, r⟩ pubkeyLen with hr | ⟨x, r', rfl, hx⟩
        · rw [fromBytes_publicKey_short h1 hr] at h; cases h
        · rw [fromBytes_publicKey h1 hx] at h; cases h
      · by_cases h3 : t.toNat ≤ 3
        · have ht : t.toNat = 2 ∨ t.toNat = 3 := by omega
          rcases short_or_append ⟨q + 1, r⟩ signatureLen with hr | ⟨x, r', rfl, hx⟩
          · rw [fromBytes_signature_short ht hr] at h; cases h
          · rw [fromBytes_signature ht hx] at h; cases h
        · rw [fromBytes_badTag (by omega)] at h
          cases h
          exact ⟨rfl, t, r, rfl, by omega⟩
  · rintro ⟨rfl, t, r, rfl, ht⟩
    exact fromBytes_badTag ht

/-- The multi-signature decoder fails with a parser error in two cases: a field count of zero
with a required count above zero, or a field count above zero with a first tag above 3. -/
theorem MultisigSpendingCondition.fromBytes_eq_error_iff {q : Nat} {x : Bytes} {e : ParserError} :
    fromBytes ⟨q, x⟩ = .error (.error e) ↔
      (e = .parserValueOutOfRange ∧
        ∃ k r, x = List.replicate 4 0 ++ (k ++ r) ∧ k.length = 2 ∧ 0 < beNat k) ∨
      (e = .parserUnexpectedValue ∧
        ∃ c t r, x = c ++ (t :: r) ∧ c.length = 4 ∧ 0 < beNat c ∧ 3 < t.toNat) := by
  constructor
  · intro h
    rcases short_or_append ⟨q, x⟩ 4 with hs | ⟨c, y, rfl, hc⟩
    · rw [fromBytes_short hs] at h; cases h
    by_cases h0 : beNat c = 0
    · rcases short_or_append ⟨q + 4, y⟩ 2 with hs | ⟨k, r, rfl, hk⟩
      · rw [fromBytes_noFields_short hc h0 hs] at h; cases h
      · rw [fromBytes_noFields hc h0 hk] at h
        split at h
        · next hk0 =>
          cases h
          exact .inl ⟨rfl, k, r, by rw [beNat_eq_zero h0, hc], hk, hk0⟩
        · cases h
    · rw [fromBytes_fields hc (Nat.pos_of_ne_zero h0)] at h
      cases hf : TransactionAuthField.fromBytes ⟨q + 4, y⟩ with
      | ok d => rw [hf] at h; cases h
      | error err =>
        rw [hf] at h
        cases h
        obtain ⟨rfl, t, r, rfl, ht⟩ := TransactionAuthField.fromBytes_eq_error_iff.mp hf
        exact .inr ⟨rfl, c, t, r, rfl, hc, Nat.pos_of_ne_zero h0, ht⟩
  · rintro (⟨rfl, k, r, rfl, hk, hk0⟩ | ⟨rfl, c, t, r, rfl, hc, hn, ht⟩)
    · rw [fromBytes_noFields (c := List.replicate 4 0) rfl rfl hk, if_pos hk0]
    · rw [fromBytes_fields hc hn, TransactionAuthField.fromBytes_badTag ht]
      rfl

namespace TransactionSpendingCondition

/-- The single-signature branch fails with a parser error exactly when its 66 bytes are there
and the tag is not an encoding the hash mode admits. -/
theorem signatureFromBytes_singlesig_eq_error_iff {q : Nat} {x : Bytes} {m : HashMode}
    {e : ParserError} (hm : m = .p2pkh ∨ m = .p2wpkh) :
    signatureFromBytes m ⟨q, x⟩ = .error (.error e) ↔
      e = .parserInvalidPubkeyEncoding ∧ ∃ t sig r, x = (t :: sig) ++ r ∧
        sig.length = signatureLen ∧ (1 < t.toNat ∨ (m = .p2wpkh ∧ t.toNat = 1)) := by
  constructor
  · intro h
    rcases short_or_append ⟨q, x⟩ singleSpendingConditionLen with hx | ⟨z, r, rfl, hz⟩
    · rw [signatureFromBytes_singlesig_short hm hx] at h; cases h
    obtain ⟨t, sig, rfl⟩ : ∃ t sig, z = t :: sig := by
      cases z with
      | nil => cases hz
      | cons t sig => exact ⟨t, sig, rfl⟩
    rw [signatureFromBytes_singlesig hm hz] at h
    split at h
    · cases h
    · next hv =>
      cases h
      refine ⟨rfl, t, sig, r, rfl, Nat.succ.inj hz, ?_⟩
      by_cases h1 : t.toNat ≤ 1
      · by_cases hp : m = .p2wpkh
        · have h0 : t.toNat ≠ 0 := fun h0 => hv ⟨h1, fun _ => h0⟩
          exact .inr ⟨hp, by omega⟩
        · exact absurd ⟨h1, fun h => absurd h hp⟩ hv
      · exact .inl (by omega)
  · rintro ⟨rfl, t, sig, r, rfl, hsig, ht⟩
    rw [signatureFromBytes_singlesig hm (by simp [hsig]; rfl), if_neg]
    rintro ⟨h1, h0⟩
    rcases ht with ht | ⟨hp, ht⟩
    · omega
    · have := h0 hp
      omega

variable {p : Nat} {b : Bytes}

/-- Which parser error the spending-condition decoder returns, and on which inputs. An
unknown hash-mode byte gives `parser_unexpected_value`. A single-signature witness whose tag is
no encoding, or is the uncompressed one under P2WPKH, gives `parser_invalid_pubkey_encoding`.
A multi-signature witness gives `parser_value_out_of_range` for a zero field count with a
non-zero required count, and `parser_unexpected_value` for a first field tag above 3. No other
input gives a parser error; in particular `parser_no_data` never comes from decoding. -/
theorem fromBytes_eq_parserError {e : ParserError} :
    fromBytes ⟨p, b⟩ = .error (.error e) ↔
      ∃ mb s x, b = (mb :: s) ++ x ∧ (mb :: s).length = spendingConditionSignerLen ∧
        ((3 < mb.toNat ∧ e = .parserUnexpectedValue) ∨
          ∃ mode, HashMode.tryFrom mb = .ok mode ∧
            (((mode = .p2pkh ∨ mode = .p2wpkh) ∧ e = .parserInvalidPubkeyEncoding ∧
                ∃ t sig r, x = (t :: sig) ++ r ∧ sig.length = signatureLen ∧
                  (1 < t.toNat ∨ (mode = .p2wpkh ∧ t.toNat = 1))) ∨
              ((mode = .p2sh ∨ mode = .p2wsh) ∧
                ((e = .parserValueOutOfRange ∧
                    ∃ k r, x = List.replicate 4 0 ++ (k ++ r) ∧ k.length = 2 ∧ 0 < beNat k) ∨
                  (e = .parserUnexpectedValue ∧
                    ∃ c t r, x = c ++ (t :: r) ∧ c.length = 4 ∧ 0 < beNat c ∧ 3 < t.toNat))))) := by
  constructor
  · intro h
    rcases short_or_append ⟨p, b⟩ spendingConditionSignerLen with hb | ⟨y, x, rfl, hy⟩
    · rw [fromBytes_short hb] at h; cases h
    obtain ⟨mb, s, rfl⟩ : ∃ mb s, y = mb :: s := by
      cases y with
      | nil => cases hy
      | cons mb s => exact ⟨mb, s, rfl⟩
    refine ⟨mb, s, x, rfl, hy, ?_⟩
    cases hm : HashMode.tryFrom mb with
    | error err =>
      rw [fromBytes_badMode hy hm] at h
      cases h
      exact .inl (HashMode.tryFrom_eq_error.mp hm)
    | ok mode =>
      rw [fromBytes_mode hy hm, Except.map_eq_error] at h
      refine .inr ⟨mode, rfl, ?_⟩
      rcases mode.singlesig_or_multisig with hmode | hmode
      · exact .inl ⟨hmode, (signatureFromBytes_singlesig_eq_error_iff hmode).mp h⟩
      · rw [signatureFromBytes_multisig hmode, Except.map_eq_error] at h
        exact .inr ⟨hmode, MultisigSpendingCondition.fromBytes_eq_error_iff.mp h⟩
  · rintro ⟨mb, s, x, rfl, hs, ⟨hm, rfl⟩ | ⟨mode, hm, ⟨hmode, hsig⟩ | ⟨hmode, hms⟩⟩⟩
    · exact fromBytes_badMode hs (HashMode.tryFrom_eq_error.mpr ⟨hm, rfl⟩)
    · rw [fromBytes_mode hs hm, Except.map_eq_error]
      exact (signatureFromBytes_singlesig_eq_error_iff hmode).mpr hsig
    · rw [fromBytes_mode hs hm, Except.map_eq_error, signatureFromBytes_multisig hmode,
        Except.map_eq_error]
      exact MultisigSpendingCondition.fromBytes_eq_error_iff.mpr hms

end TransactionSpendingCondition

end LedgerStacks
