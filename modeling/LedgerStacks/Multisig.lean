-- SUMMARY: Auth fields and the multi-signature witness: the field loop, the bounded field list, the raw span and its clearing.
import LedgerStacks.Singlesig

/-!
# Multi-signature witness

A multi-signature witness is a big-endian `u32` field count `n`, `n` auth fields, and a
big-endian `u16` count of required signatures. Each auth field is a tag byte followed by a
33-byte public key (tags 0, 1) or a 65-byte recoverable signature (tags 2, 3).

`MultisigSpendingCondition::from_bytes` reads the count, runs its field loop, reads the
required count and checks it against `n`, and keeps the whole consumed span as `raw`. The loop
stores each decoded field with `auth_fields[i] = tx` into an `ArrayVec` created empty by
`ArrayVec::new()`. Indexing an `ArrayVec` goes through `DerefMut` to the slice of its `len`
stored elements, and nothing in the loop pushes, so every such store is out of bounds.
-/

namespace LedgerStacks

-- ---------------------------------------------------------------------------
-- Auth fields
-- ---------------------------------------------------------------------------

/-- `TransactionAuthFieldID`, a `#[repr(u8)]` enum. -/
inductive TransactionAuthFieldID
  | publicKeyCompressed
  | publicKeyUncompressed
  | signatureCompressed
  | signatureUncompressed
  deriving DecidableEq, Repr

/-- The id whose discriminant is `id`: the arms of the `match id` in
`TransactionAuthField::from_bytes`. -/
def TransactionAuthFieldID.ofU8 (id : UInt8) : Option TransactionAuthFieldID :=
  match id.toNat with
  | 0 => some .publicKeyCompressed
  | 1 => some .publicKeyUncompressed
  | 2 => some .signatureCompressed
  | 3 => some .signatureUncompressed
  | _ => none

namespace TransactionAuthFieldID

variable {t : UInt8}

theorem ofU8_publicKey (ht : t.toNat ≤ 1) :
    ofU8 t = some (if t.toNat = 0 then .publicKeyCompressed else .publicKeyUncompressed) := by
  unfold ofU8
  rcases (by omega : t.toNat = 0 ∨ t.toNat = 1) with h | h <;> rw [h] <;> rfl

theorem ofU8_signature (ht : t.toNat = 2 ∨ t.toNat = 3) :
    ofU8 t = some (if t.toNat = 2 then .signatureCompressed else .signatureUncompressed) := by
  unfold ofU8
  obtain h | h := ht <;> rw [h] <;> rfl

theorem ofU8_none (ht : 3 < t.toNat) : ofU8 t = none := by
  obtain ⟨n, hn⟩ : ∃ n, t.toNat = n + 4 := ⟨t.toNat - 4, by omega⟩
  unfold ofU8
  rw [hn]
  rfl

end TransactionAuthFieldID

/-- `From<&TransactionAuthFieldID> for TransactionPublicKeyEncoding`. -/
def TransactionPublicKeyEncoding.ofAuthFieldID :
    TransactionAuthFieldID → TransactionPublicKeyEncoding
  | .publicKeyCompressed | .signatureCompressed => .compressed
  | .publicKeyUncompressed | .signatureUncompressed => .uncompressed

/-- `TransactionAuthField`: a potential signer's public key, or the signature of one who has
signed, each a view of its bytes. -/
inductive TransactionAuthField
  | publicKey (enc : TransactionPublicKeyEncoding) (key : ArrayRef pubkeyLen)
  | signature (enc : TransactionPublicKeyEncoding) (sig : ArrayRef signatureLen)
  deriving DecidableEq

def TransactionAuthField.fromBytes (bytes : Slice) : Except Failure (Slice × TransactionAuthField) := do
  let (bytes, id) ← beU8 bytes
  match TransactionAuthFieldID.ofU8 id with
  | some fid@.publicKeyCompressed | some fid@.publicKeyUncompressed =>
    let (bytes, buf) ← takeArray pubkeyLen bytes
    pure (bytes, .publicKey (.ofAuthFieldID fid) buf)
  | some fid@.signatureCompressed | some fid@.signatureUncompressed =>
    let (bytes, buf) ← takeArray signatureLen bytes
    pure (bytes, .signature (.ofAuthFieldID fid) buf)
  | none => throw (.error .parserUnexpectedValue)

namespace TransactionAuthField

variable {p : Nat} {t : UInt8} {x r : Bytes}

/-- A public-key tag (0 or 1) takes the next 33 bytes as the key, compressed when the tag
is 0. -/
theorem fromBytes_publicKey (ht : t.toNat ≤ 1) (hx : x.length = pubkeyLen) :
    fromBytes ⟨p, t :: (x ++ r)⟩ = .ok (⟨p + 1 + pubkeyLen, r⟩,
      .publicKey (if t.toNat = 0 then .compressed else .uncompressed) ⟨⟨p + 1, x⟩, hx⟩) := by
  simp only [fromBytes, beU8_cons, Except.bind_ok, TransactionAuthFieldID.ofU8_publicKey ht,
    takeArray_append hx]
  split_ifs <;> rfl

/-- A signature tag (2 or 3) takes the next 65 bytes as the signature, compressed when the tag
is 2. -/
theorem fromBytes_signature (ht : t.toNat = 2 ∨ t.toNat = 3) (hx : x.length = signatureLen) :
    fromBytes ⟨p, t :: (x ++ r)⟩ = .ok (⟨p + 1 + signatureLen, r⟩,
      .signature (if t.toNat = 2 then .compressed else .uncompressed) ⟨⟨p + 1, x⟩, hx⟩) := by
  simp only [fromBytes, beU8_cons, Except.bind_ok, TransactionAuthFieldID.ofU8_signature ht,
    takeArray_append hx]
  split_ifs <;> rfl

theorem fromBytes_nil : fromBytes ⟨p, []⟩ = .error .eof := rfl

theorem fromBytes_badTag (ht : 3 < t.toNat) :
    fromBytes ⟨p, t :: r⟩ = .error (.error .parserUnexpectedValue) := by
  simp only [fromBytes, beU8_cons, Except.bind_ok, TransactionAuthFieldID.ofU8_none ht]
  rfl

theorem fromBytes_publicKey_short (ht : t.toNat ≤ 1) (hr : r.length < pubkeyLen) :
    fromBytes ⟨p, t :: r⟩ = .error .eof := by
  simp only [fromBytes, beU8_cons, Except.bind_ok, TransactionAuthFieldID.ofU8_publicKey ht,
    takeArray_short (s := ⟨p + 1, r⟩) hr]
  split_ifs <;> rfl

theorem fromBytes_signature_short (ht : t.toNat = 2 ∨ t.toNat = 3) (hr : r.length < signatureLen) :
    fromBytes ⟨p, t :: r⟩ = .error .eof := by
  simp only [fromBytes, beU8_cons, Except.bind_ok, TransactionAuthFieldID.ofU8_signature ht,
    takeArray_short (s := ⟨p + 1, r⟩) hr]
  split_ifs <;> rfl

/-- `n` auth fields decoded one after another, without storing them: nom's `count`. -/
def fromBytesCount : Nat → Slice → Except Failure (Slice × List TransactionAuthField)
  | 0, s => .ok (s, [])
  | n + 1, s => do
    let (s, f) ← fromBytes s
    let (s, fs) ← fromBytesCount n s
    pure (s, f :: fs)

theorem fromBytesCount_succ (n : Nat) (s : Slice) :
    fromBytesCount (n + 1) s =
      (fromBytes s >>= fun d => fromBytesCount n d.1 >>= fun r => pure (r.1, d.2 :: r.2)) :=
  rfl

end TransactionAuthField

-- ---------------------------------------------------------------------------
-- `ArrayVec`
-- ---------------------------------------------------------------------------

/-- `ArrayVec<T, CAP>`: at most `CAP` elements, stored in place. -/
structure ArrayVec (α : Type) (cap : Nat) where
  toList : List α
  length_le : toList.length ≤ cap

instance {α : Type} [DecidableEq α] {cap : Nat} : DecidableEq (ArrayVec α cap) :=
  fun a b => decidable_of_iff (a.toList = b.toList) (by cases a; cases b; simp)

namespace ArrayVec

variable {α : Type} {cap : Nat}

/-- `ArrayVec::new()`. -/
def new : ArrayVec α cap := ⟨[], Nat.zero_le _⟩

/-- `len()`. -/
def len (v : ArrayVec α cap) : Nat := v.toList.length

/-- `v[i] = x`: the store goes through the slice of the `len` stored elements, so an index
at or past `len` panics whatever the capacity. -/
def set (v : ArrayVec α cap) (i : Nat) (x : α) : Except Failure (ArrayVec α cap) :=
  if i < v.len then .ok ⟨v.toList.set i x, by simpa using v.length_le⟩ else .error .panic

@[simp] theorem len_new : (new : ArrayVec α cap).len = 0 := rfl

@[ext] theorem ext {v w : ArrayVec α cap} (h : v.toList = w.toList) : v = w := by
  cases v; cases w; cases h; rfl

theorem set_of_le {v : ArrayVec α cap} {i : Nat} (x : α) (h : v.len ≤ i) :
    v.set i x = .error .panic :=
  if_neg (Nat.not_lt.2 h)

theorem set_of_lt {v : ArrayVec α cap} {i : Nat} (x : α) (h : i < v.len) :
    v.set i x = .ok ⟨v.toList.set i x, by simpa using v.length_le⟩ :=
  if_pos h

/-- `v[i] = x_0; v[i + 1] = x_1; ...` with every store in bounds. -/
def setFrom : ArrayVec α cap → Nat → List α → ArrayVec α cap
  | v, _, [] => v
  | v, i, x :: xs => setFrom ⟨v.toList.set i x, by simpa using v.length_le⟩ (i + 1) xs

end ArrayVec

-- ---------------------------------------------------------------------------
-- The witness
-- ---------------------------------------------------------------------------

/-- `MultisigSpendingCondition`. -/
structure MultisigSpendingCondition where
  /-- The consumed span, from the field count to the required count. -/
  raw : Slice
  /-- The public key or signature of each potential signer. -/
  authFields : ArrayVec TransactionAuthField 16
  /-- How many signatures of the potential signers make the transaction valid. -/
  signaturesRequired : UInt16
  deriving DecidableEq

namespace MultisigSpendingCondition

/-- The `for i in 0..num_fields` loop of `from_bytes`, from index `i` with `count` iterations
left. -/
def authFieldsLoop : Nat → Nat → Slice → ArrayVec TransactionAuthField 16 →
    Except Failure (Slice × ArrayVec TransactionAuthField 16)
  | 0, _, rest, authFields => .ok (rest, authFields)
  | count + 1, i, rest, authFields => do
    let (e, tx) ← TransactionAuthField.fromBytes rest
    let authFields ← authFields.set i tx
    authFieldsLoop count (i + 1) e authFields

def fromBytes (bytes : Slice) : Except Failure (Slice × MultisigSpendingCondition) := do
  let (rest, numFields) ← beU32 bytes
  let (rest, authFields) ← authFieldsLoop numFields.toNat 0 rest .new
  let (rest, signatureCount) ← beU16 rest
  if signatureCount.toNat > numFields.toNat then
    throw (.error .parserValueOutOfRange)
  let taken := bytes.bytes.length - rest.bytes.length
  let (bytes, raw) ← take taken bytes
  pure (bytes, ⟨raw, authFields, signatureCount⟩)

def requiredSignatures (self : MultisigSpendingCondition) : UInt16 := self.signaturesRequired

/-- `num_fields`: the number of stored fields, through the `usize -> u32` conversion whose
failure panics. -/
def numFields (self : MultisigSpendingCondition) : Except Failure UInt32 :=
  let len := self.authFields.len
  if len < UInt32.size then .ok (.ofNat len) else .error .panic

/-- `clear_signature`: zero all of `raw` but its last two bytes, the required count. -/
def clearSignature (self : MultisigSpendingCondition) (buf : Bytes) : Bytes :=
  let len := self.raw.bytes.length - 2
  writeBytes buf self.raw.ptr 0 len

/-- Once the index has reached the length of the list, the first field that decodes makes the
next store panic. -/
theorem authFieldsLoop_succ {v : ArrayVec TransactionAuthField 16} {i : Nat} (h : v.len ≤ i)
    (count : Nat) (s : Slice) :
    authFieldsLoop (count + 1) i s v =
      (TransactionAuthField.fromBytes s >>= fun _ => .error .panic) := by
  simp only [authFieldsLoop]
  cases TransactionAuthField.fromBytes s <;> simp [ArrayVec.set_of_le _ h]

/-- The field loop in closed form, for every count, start index and vector: when every store
is in bounds it decodes the fields one after another and then stores them from index `i` on;
otherwise it decodes one field more than there are stores in bounds, and the first store out
of bounds panics. A decoding error met first is returned as it is. -/
theorem authFieldsLoop_eq (n i : Nat) (s : Slice) (v : ArrayVec TransactionAuthField 16) :
    authFieldsLoop n i s v =
      if n ≤ v.len - i then
        (fun d => (d.1, v.setFrom i d.2)) <$> TransactionAuthField.fromBytesCount n s
      else TransactionAuthField.fromBytesCount (v.len - i + 1) s >>= fun _ => .error .panic := by
  induction n generalizing i s v with
  | zero => simp [authFieldsLoop, TransactionAuthField.fromBytesCount, ArrayVec.setFrom]
  | succ n ih =>
    by_cases hi : i < v.len
    · simp only [authFieldsLoop, ArrayVec.set_of_lt _ hi, Except.bind_ok, ih, ArrayVec.len,
        List.length_set]
      simp only [ArrayVec.len] at hi
      by_cases hc : n + 1 ≤ v.toList.length - i
      · simp only [if_pos hc, if_pos (show n ≤ v.toList.length - (i + 1) by omega),
          TransactionAuthField.fromBytesCount_succ]
        cases TransactionAuthField.fromBytes s with
        | error e => rfl
        | ok d =>
          simp only [Except.bind_ok]
          cases TransactionAuthField.fromBytesCount n d.1 <;> rfl
      · rw [if_neg hc, show v.toList.length - i = v.toList.length - (i + 1) + 1 by omega,
          TransactionAuthField.fromBytesCount_succ _ s]
        simp only [if_neg (show ¬n ≤ v.toList.length - (i + 1) by omega)]
        cases TransactionAuthField.fromBytes s with
        | error e => rfl
        | ok d =>
          simp only [Except.bind_ok]
          cases TransactionAuthField.fromBytesCount (v.toList.length - (i + 1) + 1) d.1 <;> rfl
    · rw [if_neg (by omega), show v.len - i = 0 by omega, authFieldsLoop_succ (by omega),
        TransactionAuthField.fromBytesCount_succ]
      cases TransactionAuthField.fromBytes s <;> rfl

variable {p : Nat} {c k r : Bytes} {s : Slice}

theorem fromBytes_short (h : s.bytes.length < 4) : fromBytes s = .error .eof := by
  simp only [fromBytes, beU32_short h, Except.bind_error]

private theorem count_toNat (hc : c.length = 4) : (UInt32.ofNat (beNat c)).toNat = beNat c :=
  UInt32.toNat_ofNat_of_lt (by simpa [hc] using beNat_lt c)

/-- With at least one field announced, the decoder ends in the first field's error, or, once
that field decodes, in a panic. -/
theorem fromBytes_fields (hc : c.length = 4) (hn : 0 < beNat c) :
    fromBytes ⟨p, c ++ r⟩ =
      (TransactionAuthField.fromBytes ⟨p + 4, r⟩ >>= fun _ => .error .panic) := by
  have hm : (UInt32.ofNat (beNat c)).toNat = beNat c - 1 + 1 := by rw [count_toNat hc]; omega
  simp only [fromBytes, beU32_append hc, Except.bind_ok, hm,
    authFieldsLoop_succ (v := .new) (i := 0) (Nat.zero_le _)]
  cases TransactionAuthField.fromBytes ⟨p + 4, r⟩ <;> rfl

/-- With no field announced, the decoder reads the required count, rejects any count above
zero, and keeps the six bytes read as `raw`. -/
theorem fromBytes_noFields (hc : c.length = 4) (h0 : beNat c = 0) (hk : k.length = 2) :
    fromBytes ⟨p, c ++ (k ++ r)⟩ =
      if 0 < beNat k then .error (.error .parserValueOutOfRange)
      else .ok (⟨p + 6, r⟩, ⟨⟨p, c ++ k⟩, .new, .ofNat (beNat k)⟩) := by
  have hk16 : (UInt16.ofNat (beNat k)).toNat = beNat k :=
    UInt16.toNat_ofNat_of_lt (by simpa [hk] using beNat_lt k)
  have htake := take_append (n := 6) (p := p) (r := r) (x := c ++ k) (by simp [hc, hk])
  have hz : (UInt32.ofNat (beNat c)).toNat = 0 := by rw [count_toNat hc, h0]
  simp only [List.append_assoc] at htake
  simp only [fromBytes, beU32_append hc, Except.bind_ok, hz, authFieldsLoop,
    beU16_append hk, hk16, gt_iff_lt]
  by_cases hk0 : 0 < beNat k
  · simp only [hk0, if_true, Except.throw_eq_error, Except.bind_error]
  · simp only [hk0, if_false, List.length_append, hc, hk]
    rw [show 4 + (2 + r.length) - r.length = 6 by omega, htake]
    rfl

theorem fromBytes_noFields_short (hc : c.length = 4) (h0 : beNat c = 0) (hr : r.length < 2) :
    fromBytes ⟨p, c ++ r⟩ = .error .eof := by
  have hz : (UInt32.ofNat (beNat c)).toNat = 0 := by rw [count_toNat hc, h0]
  simp only [fromBytes, beU32_append hc, Except.bind_ok, hz, authFieldsLoop,
    beU16_short (s := ⟨p + 4, r⟩) hr, Except.bind_error]

/-- The decoder accepts only a witness without fields: both counts are zero, and `raw` is
those six bytes. -/
theorem fromBytes_eq_ok {x : Bytes} {t : Slice} {m : MultisigSpendingCondition}
    (h : fromBytes ⟨p, x⟩ = .ok (t, m)) :
    x = List.replicate 6 0 ++ t.bytes ∧ t.ptr = p + 6 ∧
      m = ⟨⟨p, List.replicate 6 0⟩, .new, 0⟩ := by
  rcases short_or_append ⟨p, x⟩ 4 with hs | ⟨c, y, rfl, hc⟩
  · rw [fromBytes_short hs] at h; cases h
  by_cases h0 : beNat c = 0
  · rcases short_or_append ⟨p + 4, y⟩ 2 with hs | ⟨k, r, rfl, hk⟩
    · rw [fromBytes_noFields_short hc h0 hs] at h; cases h
    rw [fromBytes_noFields hc h0 hk] at h
    split at h
    · cases h
    · obtain ⟨rfl, rfl⟩ := Prod.mk.inj (Except.ok.inj h)
      have hk0 : beNat k = 0 := by omega
      rw [hk0, beNat_eq_zero h0, beNat_eq_zero hk0, hc, hk]
      exact ⟨rfl, rfl, rfl⟩
  · rw [fromBytes_fields hc (Nat.pos_of_ne_zero h0)] at h
    cases hf : TransactionAuthField.fromBytes ⟨p + 4, y⟩ <;> rw [hf] at h <;> cases h

/-- Clearing a witness whose consumed span `x` stands after `a` writes zeros over all of `x`
but its last two bytes, the required count; every byte outside the span keeps its value. -/
theorem clearSignature_eq (a x z : Bytes) (fs : ArrayVec TransactionAuthField 16) (k : UInt16) :
    clearSignature ⟨⟨a.length, x⟩, fs, k⟩ (a ++ x ++ z) =
      a ++ List.replicate (x.length - 2) 0 ++ (x.drop (x.length - 2) ++ z) := by
  have h := writeBytes_append a (x.take (x.length - 2)) (x.drop (x.length - 2) ++ z) 0
  rw [List.length_take_of_le (Nat.sub_le _ _), List.append_assoc a, ← List.append_assoc (x.take _),
    List.take_append_drop] at h
  simpa only [clearSignature, List.append_assoc] using h

end MultisigSpendingCondition

end LedgerStacks
