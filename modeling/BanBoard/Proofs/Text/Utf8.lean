import BanBoard.Proofs.Text.Split
import BanBoard.Text.Utf8

/-!
What strict decoding gives back. The bytes of a text are read as that text and no other bytes are, the
first of them are read as a beginning of the text if at all, and a byte below the continuation bytes
stands for itself alone, so it can be looked for in the bytes of a text.
-/

namespace BanBoard.Text

theorem toArray_encodeUtf8 (s : List Char) : (⟨(encodeUtf8 s).toArray⟩ : ByteArray) = s.utf8Encode := by
  ext1
  simp [List.utf8Encode, encodeUtf8]

/-- The bytes of a text are read as that text. -/
theorem decodeUtf8?_encodeUtf8 (s : List Char) : decodeUtf8? (encodeUtf8 s) = some s := by
  have hString : String.fromUTF8? (String.ofList s).toByteArray = some (String.ofList s) :=
    dif_pos (String.ofList s).isValidUTF8
  rw [decodeUtf8?, toArray_encodeUtf8, ← String.toByteArray_ofList, hString, Option.map_some,
    String.toList_ofList]

/-- Only the bytes of a text are read as it. -/
theorem eq_encodeUtf8_of_decodeUtf8? {bytes : List UInt8} {s : List Char}
    (h : decodeUtf8? bytes = some s) : bytes = encodeUtf8 s := by
  obtain ⟨string, hString, rfl⟩ := Option.map_eq_some_iff.mp h
  rw [String.fromUTF8?] at hString
  split at hString
  · rename_i hValid
    obtain rfl := Option.some.inj hString
    have hBytes : (⟨bytes.toArray⟩ : ByteArray) =
        (String.fromUTF8 ⟨bytes.toArray⟩ hValid).toList.utf8Encode := by
      rw [← String.toByteArray_ofList, String.ofList_toList]
      rfl
    rw [← toArray_encodeUtf8] at hBytes
    exact congrArg Array.toList (ByteArray.mk.inj hBytes)
  · cases hString

/-- Bytes decode to a text just when they are its encoding. -/
theorem decodeUtf8?_eq_some_iff {bytes : List UInt8} {s : List Char} :
    decodeUtf8? bytes = some s ↔ bytes = encodeUtf8 s :=
  ⟨eq_encodeUtf8_of_decodeUtf8?, fun h => h ▸ decodeUtf8?_encodeUtf8 s⟩

theorem encodeUtf8_injective : Function.Injective encodeUtf8 := by
  intro s t h
  have hRead := decodeUtf8?_encodeUtf8 s
  rw [h, decodeUtf8?_encodeUtf8] at hRead
  exact (Option.some.inj hRead).symm

theorem encodeUtf8_cons (c : Char) (s : List Char) :
    encodeUtf8 (c :: s) = String.utf8EncodeChar c ++ encodeUtf8 s :=
  List.flatMap_cons

theorem encodeUtf8_append (s t : List Char) : encodeUtf8 (s ++ t) = encodeUtf8 s ++ encodeUtf8 t :=
  List.flatMap_append

/-- The bytes of a character tell where they end. -/
theorem eq_of_utf8EncodeChar_append {c d : Char} {after rest : List UInt8}
    (h : String.utf8EncodeChar c ++ after = String.utf8EncodeChar d ++ rest) : c = d := by
  have hFirst (c : Char) (after : List UInt8) :
      (String.utf8EncodeChar c ++ after).toByteArray.utf8DecodeChar? 0 = some c := by
    rw [List.toByteArray_append]
    exact ByteArray.utf8DecodeChar?_utf8EncodeChar_append
  have hSame := hFirst c after
  rw [h, hFirst d rest] at hSame
  exact (Option.some.inj hSame).symm

/-- A text whose bytes are the first of another one's is the beginning of that one. -/
theorem isPrefix_of_encodeUtf8 {s t : List Char} (h : encodeUtf8 s <+: encodeUtf8 t) : s <+: t := by
  induction s generalizing t with
  | nil => exact List.nil_prefix
  | cons c s ih =>
      rw [encodeUtf8_cons] at h
      cases t with
      | nil =>
          have hNone := List.append_eq_nil_iff.mp (List.prefix_nil.mp h)
          exact (String.utf8EncodeChar_ne_nil hNone.1).elim
      | cons d t =>
          rw [encodeUtf8_cons] at h
          obtain ⟨after, hAfter⟩ := h
          rw [List.append_assoc] at hAfter
          obtain rfl := eq_of_utf8EncodeChar_append hAfter
          exact List.cons_prefix_cons.mpr ⟨rfl, ih ⟨after, List.append_cancel_left hAfter⟩⟩

theorem ofNat_ne_of_ascii {b : UInt8} {n : Nat} (hAscii : b.toNat < 128) (hLow : 128 ≤ n)
    (hHigh : n < 256) : b ≠ UInt8.ofNat n := by
  rintro rfl
  rw [UInt8.toNat_ofNat_of_lt' hHigh] at hAscii
  omega

/-- An ASCII byte occurs in the encoding of its own character only. -/
theorem toNat_eq_of_mem_utf8EncodeChar {b : UInt8} {c : Char} (hAscii : b.toNat < 128)
    (h : b ∈ String.utf8EncodeChar c) : c.toNat = b.toNat := by
  have hOther {n : Nat} (hLow : 128 ≤ n) (hHigh : n < 256) : b ≠ UInt8.ofNat n :=
    ofNat_ne_of_ascii hAscii hLow hHigh
  revert h
  fun_cases String.utf8EncodeChar c with
  | case1 code hOne =>
      intro h
      have hSize : code < UInt8.size := Nat.lt_of_le_of_lt hOne (by decide)
      rw [List.mem_singleton.mp h, UInt8.toNat_ofNat_of_lt' hSize]
      rfl
  | case2 code hOne hTwo =>
      simp only [List.mem_cons, List.not_mem_nil, or_false]
      intro h
      rcases h with h | h <;> exact (hOther (by omega) (by omega) h).elim
  | case3 code hOne hTwo hThree =>
      simp only [List.mem_cons, List.not_mem_nil, or_false]
      intro h
      rcases h with h | h | h <;> exact (hOther (by omega) (by omega) h).elim
  | case4 code hOne hTwo hThree =>
      simp only [List.mem_cons, List.not_mem_nil, or_false]
      intro h
      rcases h with h | h | h | h <;> exact (hOther (by omega) (by omega) h).elim

/-- A text without a newline has bytes without one. -/
theorem newline_notMem_encodeUtf8 {s : List Char} (h : '\n' ∉ s) : (0x0A : UInt8) ∉ encodeUtf8 s := by
  intro hMem
  obtain ⟨c, hChar, hByte⟩ := List.mem_flatMap.mp hMem
  have hCode := toNat_eq_of_mem_utf8EncodeChar (by decide) hByte
  have hNewline : c = '\n' := Char.ext (UInt32.toNat_inj.mp hCode)
  exact h (hNewline ▸ hChar)

theorem encodeUtf8_intercalate (separator : List Char) (pieces : List (List Char)) :
    encodeUtf8 (separator.intercalate pieces) =
      (encodeUtf8 separator).intercalate (pieces.map encodeUtf8) := by
  induction pieces with
  | nil => rfl
  | cons piece pieces ih =>
      cases pieces with
      | nil => simp
      | cons next pieces =>
          rw [List.intercalate_cons_cons, encodeUtf8_append, encodeUtf8_append, ih]
          simp only [List.map_cons, List.intercalate_cons_cons]

/-- The lines of the bytes are the bytes of the lines. -/
theorem splitOn_encodeUtf8 (s : List Char) :
    (encodeUtf8 s).splitOn 0x0A = (s.splitOn '\n').map encodeUtf8 := by
  have hPlain : ∀ piece ∈ (s.splitOn '\n').map encodeUtf8, (0x0A : UInt8) ∉ piece := by
    rw [List.forall_mem_map]
    exact fun piece hMem => newline_notMem_encodeUtf8 (notMem_of_mem_splitOn piece hMem)
  have hSome : (s.splitOn '\n').map encodeUtf8 ≠ [] :=
    fun hNone => List.splitOn_ne_nil _ _ (List.map_eq_nil_iff.mp hNone)
  calc (encodeUtf8 s).splitOn 0x0A
      = (encodeUtf8 (['\n'].intercalate (s.splitOn '\n'))).splitOn 0x0A := by
        rw [List.intercalate_splitOn]
    _ = (([0x0A] : List UInt8).intercalate ((s.splitOn '\n').map encodeUtf8)).splitOn 0x0A := by
        rw [encodeUtf8_intercalate]
        rfl
    _ = (s.splitOn '\n').map encodeUtf8 := List.splitOn_intercalate _ hPlain hSome

theorem newline_mem_encodeUtf8 {s : List Char} (h : '\n' ∈ s) : (0x0A : UInt8) ∈ encodeUtf8 s :=
  List.mem_flatMap.mpr ⟨'\n', h, by decide⟩

end BanBoard.Text
