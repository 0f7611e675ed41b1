import Adventure.Proofs.Save.Envelope
import Adventure.Proofs.Wire.Packed
import Mathlib.Tactic.Ring

/-!
# Which bytes are envelopes

`Layout` cuts bytes into the parts of an envelope without judging them.  `IsEnvelope` says which
bytes are accepted and `Flawed` which are refused and why: of several flaws the first in the order
of the parts is reported, and a payload of another length than declared last.  An envelope says how
long it is, so nothing that goes on after one or stops short of its end is an envelope.
-/

namespace Adventure.Save

open Wire MessagePack

/-! ## Parts -/

/-- Bytes as the parts of an envelope: four bytes for the mark, two for the version, two for
what the payload is, four for its length, and the payload.  Numbers have their most significant
byte first. -/
inductive Layout : List UInt8 → (mark : List UInt8) → (version code length : Nat) →
    (payload : List UInt8) → Prop where
  | parts (m₁ m₂ m₃ m₄ v₁ v₂ c₁ c₂ l₁ l₂ l₃ l₄ : UInt8) (payload : List UInt8) :
    Layout (m₁ :: m₂ :: m₃ :: m₄ :: v₁ :: v₂ :: c₁ :: c₂ :: l₁ :: l₂ :: l₃ :: l₄ :: payload)
      [m₁, m₂, m₃, m₄] (v₁.toNat * 256 + v₂.toNat) (c₁.toNat * 256 + c₂.toNat)
      (((l₁.toNat * 256 + l₂.toNat) * 256 + l₃.toNat) * 256 + l₄.toNat) payload

/-- Bytes that are an envelope with a header and a payload. -/
structure IsEnvelope (bytes : List UInt8) (header : Header) (payload : List UInt8) : Prop where
  layout : Layout bytes [0x53, 0x4e, 0x41, 0x4b] header.version header.kind.code
    header.length payload
  version_le : header.version ≤ 1
  length_eq : header.length = payload.length

/-- Bytes that are no envelope, and the first reason why. -/
inductive Flawed (bytes : List UInt8) : SaveFault → Prop where
  | truncated (h : bytes.length < 12) : Flawed bytes .truncatedHeader
  | unmarked {mark payload : List UInt8} {version code length : Nat}
      (layout : Layout bytes mark version code length payload)
      (h : mark ≠ [0x53, 0x4e, 0x41, 0x4b]) : Flawed bytes .badMagic
  | newer {payload : List UInt8} {version code length : Nat}
      (layout : Layout bytes [0x53, 0x4e, 0x41, 0x4b] version code length payload)
      (h : 1 < version) : Flawed bytes (.unsupportedVersion version)
  | unknown {payload : List UInt8} {version code length : Nat}
      (layout : Layout bytes [0x53, 0x4e, 0x41, 0x4b] version code length payload)
      (hversion : version ≤ 1) (h : ∀ kind : PayloadKind, kind.code ≠ code) :
      Flawed bytes (.unknownPayloadKind code)
  | mismeasured {payload : List UInt8} {version length : Nat} {kind : PayloadKind}
      (layout : Layout bytes [0x53, 0x4e, 0x41, 0x4b] version kind.code length payload)
      (hversion : version ≤ 1) (h : length ≠ payload.length) :
      Flawed bytes (.lengthMismatch length payload.length)

variable {bytes mark payload : List UInt8} {version code length : Nat} {header : Header}

theorem exists_layout (h : 12 ≤ bytes.length) :
    ∃ mark version code length payload, Layout bytes mark version code length payload := by
  match bytes, h with
  | _ :: _ :: _ :: _ :: _ :: _ :: _ :: _ :: _ :: _ :: _ :: _ :: payload, _ =>
    exact ⟨_, _, _, _, payload, .parts ..⟩

/-! ## Numbers -/

theorem ofBigEndian_cons (b : UInt8) (data : List UInt8) :
    ofBigEndian (b :: data) = b.toNat * 256 ^ data.length + ofBigEndian data := by
  have hfold : ∀ acc, data.foldl (fun acc b => acc * 256 + b.toNat) acc =
      acc * 256 ^ data.length + ofBigEndian data := by
    unfold ofBigEndian
    induction data with
    | nil => simp
    | cons c rest ih =>
      intro acc
      rw [List.foldl_cons, List.foldl_cons, ih, ih (0 * 256 + c.toNat), List.length_cons,
        Nat.pow_succ']
      ring
  rw [ofBigEndian, List.foldl_cons, hfold]
  simp

/-- A number that is read is written with the same bytes. -/
theorem bigEndian_ofBigEndian (data : List UInt8) (front : Nat) :
    bigEndian data.length (front * 256 ^ data.length + ofBigEndian data) = data := by
  induction data generalizing front with
  | nil => rfl
  | cons b rest ih =>
    have hrest : ofBigEndian rest < 256 ^ rest.length := by
      simpa [ofBigEndian] using foldl_bytes_lt rest 0
    have hb := b.toNat_lt
    have hsplit : front * 256 ^ (b :: rest).length + ofBigEndian (b :: rest) =
        (front * 256 + b.toNat) * 256 ^ rest.length + ofBigEndian rest := by
      rw [ofBigEndian_cons, List.length_cons, Nat.pow_succ']
      ring
    have hfirst : ((front * 256 + b.toNat) * 256 ^ rest.length + ofBigEndian rest) /
        256 ^ rest.length % 256 = b.toNat := by
      rw [Nat.add_comm, Nat.add_mul_div_right _ _ (Nat.pow_pos (by decide)),
        Nat.div_eq_of_lt hrest, Nat.zero_add]
      omega
    rw [hsplit, List.length_cons, bigEndian, ih, Nat.pow_eq, hfirst, UInt8.ofNat_toNat]

namespace Layout

theorem length_bytes (h : Layout bytes mark version code length payload) :
    bytes.length = payload.length + 12 := by
  cases h
  rfl

/-- The bytes of an accepted header and payload are the ones that were cut. -/
theorem encode_append {kind : PayloadKind}
    (h : Layout bytes magic version kind.code length payload) :
    (⟨version, kind, length⟩ : Header).encode ++ payload = bytes := by
  generalize hcode : kind.code = code at h
  cases h with
  | parts _ _ _ _ v₁ v₂ c₁ c₂ l₁ l₂ l₃ l₄ payload =>
    have hversion : bigEndian 2 (v₁.toNat * 256 + v₂.toNat) = [v₁, v₂] := by
      simpa [ofBigEndian] using bigEndian_ofBigEndian [v₁, v₂] 0
    have hkind : bigEndian 2 (c₁.toNat * 256 + c₂.toNat) = [c₁, c₂] := by
      simpa [ofBigEndian] using bigEndian_ofBigEndian [c₁, c₂] 0
    have hlength : bigEndian 4 (((l₁.toNat * 256 + l₂.toNat) * 256 + l₃.toNat) * 256 + l₄.toNat) =
        [l₁, l₂, l₃, l₄] := by
      simpa [ofBigEndian] using bigEndian_ofBigEndian [l₁, l₂, l₃, l₄] 0
    simp [Header.encode, hcode, hversion, hkind, hlength, magic]

/-- Checks are made in the order of the parts. -/
theorem decode_eq (h : Layout bytes mark version code length payload) :
    Header.decode bytes =
      if mark ≠ [0x53, 0x4e, 0x41, 0x4b] then .error .badMagic
      else if 1 < version then .error (.unsupportedVersion version)
      else match PayloadKind.ofCode? code with
        | none => .error (.unknownPayloadKind code)
        | some kind => .ok ⟨version, kind, length⟩ := by
  have hlength : ¬ bytes.length < headerLength := by
    rw [h.length_bytes, headerLength]
    omega
  rw [Header.decode, if_neg hlength]
  cases h
  simp only [ofBigEndian, List.take_succ_cons, List.take_zero, List.drop_succ_cons, List.drop_zero,
    List.foldl_cons, List.foldl_nil, Nat.zero_mul, Nat.zero_add]
  rfl

theorem unwrap_of_accepted (h : Layout bytes mark version code length payload)
    (hdecode : Header.decode bytes = .ok header) :
    unwrap bytes = if payload.length = header.length then .ok (header, payload)
      else .error (.lengthMismatch header.length payload.length) := by
  have hdrop : bytes.drop headerLength = payload := by
    cases h
    rfl
  rw [unwrap, hdecode, hdrop]

/-- How long an envelope is stands in its front. -/
theorem length_eq_of_isPrefix {bytes' payload' : List UInt8}
    {mark' : List UInt8} {version' code' length' : Nat}
    (h : Layout bytes mark version code length payload)
    (h' : Layout bytes' mark' version' code' length' payload') (front : bytes' <+: bytes) :
    length' = length := by
  obtain ⟨rest, rfl⟩ := front
  cases h'
  cases h
  rfl

end Layout

theorem PayloadKind.ofCode?_eq_some_iff {kind : PayloadKind} :
    ofCode? code = some kind ↔ kind.code = code := by
  constructor
  · intro h
    unfold ofCode? at h
    split at h <;> cases h <;> rfl
  · rintro rfl
    exact ofCode?_code kind

/-! ## What is accepted, and what is not -/

theorem IsEnvelope.unwrap_eq (h : IsEnvelope bytes header payload) :
    unwrap bytes = .ok (header, payload) := by
  have hdecode : Header.decode bytes = .ok header := by
    rw [h.layout.decode_eq, if_neg (fun hne => hne rfl), if_neg (Nat.not_lt.2 h.version_le),
      PayloadKind.ofCode?_code]
  rw [h.layout.unwrap_of_accepted hdecode, if_pos h.length_eq.symm]

/-- A flaw of the header is reported before the payload is looked at. -/
theorem unwrap_of_refused {fault : SaveFault} (h : Header.decode bytes = .error fault) :
    unwrap bytes = .error fault := by
  rw [unwrap, h]

theorem Flawed.unwrap_eq {fault : SaveFault} (h : Flawed bytes fault) :
    unwrap bytes = .error fault := by
  cases h with
  | truncated h => exact unwrap_of_refused (if_pos h)
  | unmarked layout h =>
    refine unwrap_of_refused ?_
    rw [layout.decode_eq, if_pos h]
  | newer layout h =>
    refine unwrap_of_refused ?_
    rw [layout.decode_eq, if_neg (fun hne => hne rfl), if_pos h]
  | @unknown payload version code length layout hversion h =>
    have hnone : PayloadKind.ofCode? code = none := by
      cases hcode : PayloadKind.ofCode? code with
      | none => rfl
      | some kind => exact absurd (PayloadKind.ofCode?_eq_some_iff.1 hcode) (h kind)
    refine unwrap_of_refused ?_
    rw [layout.decode_eq, if_neg (fun hne => hne rfl), if_neg (Nat.not_lt.2 hversion), hnone]
  | @mismeasured payload version length kind layout hversion h =>
    have hdecode : Header.decode bytes = .ok ⟨version, kind, length⟩ := by
      rw [layout.decode_eq, if_neg (fun hne => hne rfl), if_neg (Nat.not_lt.2 hversion),
        PayloadKind.ofCode?_code]
    rw [layout.unwrap_of_accepted hdecode, if_neg (Ne.symm h)]

/-- All bytes are an envelope or flawed. -/
theorem isEnvelope_or_flawed (bytes : List UInt8) :
    (∃ header payload, IsEnvelope bytes header payload) ∨ ∃ fault, Flawed bytes fault := by
  by_cases hlength : bytes.length < 12
  · exact .inr ⟨_, .truncated hlength⟩
  obtain ⟨mark, version, code, length, payload, layout⟩ := exists_layout (Nat.not_lt.1 hlength)
  by_cases hmark : mark = [0x53, 0x4e, 0x41, 0x4b]
  · subst hmark
    by_cases hversion : version ≤ 1
    · by_cases hcode : ∃ kind : PayloadKind, kind.code = code
      · obtain ⟨kind, rfl⟩ := hcode
        by_cases hpayload : length = payload.length
        · exact .inl ⟨⟨version, kind, length⟩, payload, layout, hversion, hpayload⟩
        · exact .inr ⟨_, .mismeasured layout hversion hpayload⟩
      · exact .inr ⟨_, .unknown layout hversion fun kind heq => hcode ⟨kind, heq⟩⟩
    · exact .inr ⟨_, .newer layout (Nat.not_le.1 hversion)⟩
  · exact .inr ⟨_, .unmarked layout hmark⟩

theorem unwrap_eq_ok_iff :
    unwrap bytes = .ok (header, payload) ↔ IsEnvelope bytes header payload := by
  refine ⟨fun h => ?_, IsEnvelope.unwrap_eq⟩
  rcases isEnvelope_or_flawed bytes with ⟨header', payload', h'⟩ | ⟨fault, h'⟩
  · rw [h'.unwrap_eq] at h
    cases h
    exact h'
  · rw [h'.unwrap_eq] at h
    cases h

theorem unwrap_eq_error_iff {fault : SaveFault} :
    unwrap bytes = .error fault ↔ Flawed bytes fault := by
  refine ⟨fun h => ?_, Flawed.unwrap_eq⟩
  rcases isEnvelope_or_flawed bytes with ⟨header', payload', h'⟩ | ⟨fault', h'⟩
  · rw [h'.unwrap_eq] at h
    cases h
  · rw [h'.unwrap_eq] at h
    cases h
    exact h'

/-- An envelope that begins another one is the same. -/
theorem IsEnvelope.eq_of_isPrefix {bytes' payload' : List UInt8} {header' : Header}
    (h : IsEnvelope bytes header payload) (h' : IsEnvelope bytes' header' payload')
    (front : bytes' <+: bytes) : bytes' = bytes := by
  refine front.eq_of_length ?_
  rw [h.layout.length_bytes, h'.layout.length_bytes, ← h.length_eq, ← h'.length_eq,
    h.layout.length_eq_of_isPrefix h'.layout front]

/-- An envelope without its end, or with something after it, is refused. -/
theorem IsEnvelope.exists_flawed {bytes' : List UInt8} (h : IsEnvelope bytes header payload)
    (hne : bytes' ≠ bytes) (hcut : bytes' <+: bytes ∨ bytes <+: bytes') :
    ∃ fault, unwrap bytes' = .error fault := by
  rcases isEnvelope_or_flawed bytes' with ⟨header', payload', h'⟩ | ⟨fault, h'⟩
  · rcases hcut with front | front
    · exact absurd (h.eq_of_isPrefix h' front) hne
    · exact absurd (h'.eq_of_isPrefix h front).symm hne
  · exact ⟨fault, h'.unwrap_eq⟩

/-- Bytes are accepted exactly if they are an envelope, and then they are what its header and
payload are written as, no other bytes that begin or go on like them are accepted, and no other
kind may be asked for.  If they are not, the first flaw is reported.  What is put into an envelope
comes out. -/
theorem accepts_envelopes (bytes : List UInt8) :
    (∀ header payload, unwrap bytes = .ok (header, payload) ↔ IsEnvelope bytes header payload) ∧
    (∀ fault, unwrap bytes = .error fault ↔ Flawed bytes fault) ∧
    (∀ header payload, IsEnvelope bytes header payload →
      header.encode ++ payload = bytes ∧
      (∀ bytes', bytes' ≠ bytes → bytes' <+: bytes ∨ bytes <+: bytes' →
        ∃ fault, unwrap bytes' = .error fault) ∧
      ∀ kind, unwrapKind kind bytes =
        if kind = header.kind then .ok payload else .error (.kindMismatch kind header.kind)) ∧
    ∀ kind payload, payload.length < 2 ^ 32 → ∃ blob, wrap kind payload = .ok blob ∧
      unwrap blob = .ok (⟨1, kind, payload.length⟩, payload) := by
  refine ⟨fun _ _ => unwrap_eq_ok_iff, fun _ => unwrap_eq_error_iff, fun header payload h => ?_,
    fun kind payload h => unwrap_wrap h⟩
  refine ⟨h.layout.encode_append, fun bytes' => h.exists_flawed, fun kind => ?_⟩
  rw [unwrapKind, h.unwrap_eq]
  by_cases hkind : kind = header.kind
  · simp only [hkind, if_true]
  · simp only [if_neg hkind, if_neg (Ne.symm hkind)]

end Adventure.Save
