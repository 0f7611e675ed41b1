import Adventure.Proofs.Wire.MessagePack

/-!
# Envelopes come back

The payload of an envelope is the one that was put into it, and a value whose packed form fits comes
back from its blob.
-/

namespace Adventure.Save

open Wire

theorem Header.length_encode (h : Header) : h.encode.length = headerLength := by
  simp only [Header.encode, List.length_append, MessagePack.length_bigEndian]
  rfl

/-- A header is read from the front of a blob. -/
theorem Header.decode_encode {kind : PayloadKind} {length : Nat} (h : length < 0x100000000)
    (payload : List UInt8) :
    Header.decode ((⟨formatVersion, kind, length⟩ : Header).encode ++ payload) =
      .ok ⟨formatVersion, kind, length⟩ := by
  have hlength : ¬((⟨formatVersion, kind, length⟩ : Header).encode ++ payload).length <
      headerLength := by
    rw [List.length_append, Header.length_encode]
    omega
  have hcode : kind.code < 256 ^ 2 := by cases kind <;> decide
  have hdrop : ((⟨formatVersion, kind, length⟩ : Header).encode ++ payload).drop 8 =
      MessagePack.bigEndian 4 length ++ payload := by
    cases kind <;> rfl
  have hkind : (((⟨formatVersion, kind, length⟩ : Header).encode ++ payload).drop 6).take 2 =
      MessagePack.bigEndian 2 kind.code := by
    cases kind <;> rfl
  have hfirst : formatVersion < 256 ^ 2 := by decide
  have hversion : (((⟨formatVersion, kind, length⟩ : Header).encode ++ payload).drop 4).take 2 =
      MessagePack.bigEndian 2 formatVersion := by
    cases kind <;> rfl
  have hsize : (MessagePack.bigEndian 4 length ++ payload).take 4 =
      MessagePack.bigEndian 4 length := rfl
  rw [Header.decode, if_neg hlength, if_neg (by exact fun hne => hne rfl)]
  have hlength' : length < 256 ^ 4 := h
  simp only [hversion, hdrop, hkind, hsize, MessagePack.ofBigEndian_bigEndian hfirst,
    MessagePack.ofBigEndian_bigEndian hcode, MessagePack.ofBigEndian_bigEndian hlength',
      PayloadKind.ofCode?_code]
  rw [if_neg (Nat.lt_irrefl _)]

/-- What is put into an envelope comes out of it. -/
theorem unwrap_wrap {kind : PayloadKind} {payload : List UInt8}
    (h : payload.length < 0x100000000) :
    ∃ blob, wrap kind payload = .ok blob ∧
      unwrap blob = .ok (⟨formatVersion, kind, payload.length⟩, payload) := by
  refine ⟨_, if_pos h, ?_⟩
  have hdrop : ((⟨formatVersion, kind, payload.length⟩ : Header).encode ++ payload).drop
      headerLength = payload := by
    rw [← Header.length_encode ⟨formatVersion, kind, payload.length⟩, List.drop_left]
  rw [unwrap, Header.decode_encode h]
  simp [hdrop]

theorem unwrapKind_wrap {kind : PayloadKind} {payload : List UInt8}
    (h : payload.length < 0x100000000) :
    ∃ blob, wrap kind payload = .ok blob ∧ unwrapKind kind blob = .ok payload := by
  obtain ⟨blob, hwrap, hunwrap⟩ := @unwrap_wrap kind _ h
  refine ⟨blob, hwrap, ?_⟩
  rw [unwrapKind, hunwrap]
  exact if_pos rfl

/-- A value whose packed form fits comes back from its blob. -/
theorem ofBlob_toBlob {α : Type} [Wire α] {kind : PayloadKind} {a : α} {plain : Bool}
    (told : Told .packed a) (writable : (encode a).Writable plain MessagePack.maxDepth)
    (fits : (pack a).length < 0x100000000) :
    ∃ blob, toBlob kind a = .ok blob ∧ ofBlob kind blob = .ok a := by
  obtain ⟨blob, hwrap, hunwrap⟩ := @unwrapKind_wrap kind _ fits
  obtain ⟨v, hv, hread⟩ := MessagePack.read?_write writable fits
  have hunpack : unpack? (pack a) = some a := by
    rw [unpack?, pack, hread]
    exact told v hv
  refine ⟨blob, hwrap, ?_⟩
  rw [ofBlob, hunwrap]
  simp only [hunpack]

end Adventure.Save
