/-!
Slices of a text by offsets in bytes. A text is kept as UTF-8, in which a character takes one to
four bytes, so that an offset may point into the middle of a character. A slice begins and ends on
boundaries between characters; from or to any other offset there is none.
-/

namespace Lexing

/-- Whether a character of the text starts at the offset, or the text ends there. -/
abbrev IsBoundary (text : String) (offset : Nat) : Prop :=
  String.Pos.Raw.IsValid text ⟨offset⟩

/-- A slice that is asked for and does not exist. -/
structure BadSlice where
  text : String
  start : Nat
  stop : Nat
deriving DecidableEq, Repr

/-- The text from one boundary up to another one that does not stand before it. -/
def slice (text : String) (start stop : Nat) : Except BadSlice String :=
  if h : IsBoundary text start ∧ IsBoundary text stop ∧ start ≤ stop then
    .ok (text.extract ⟨⟨start⟩, h.1⟩ ⟨⟨stop⟩, h.2.1⟩)
  else .error ⟨text, start, stop⟩

/-- The number of bytes that the text takes. -/
def byteSize (text : List Char) : Nat :=
  (String.ofList text).utf8ByteSize

/-- The offset of the character with the given index, or of the end of the text behind them all. -/
def byteOffset (text : List Char) (index : Nat) : Nat :=
  byteSize (text.take index)

/-! ## Sizes and offsets -/

@[simp] theorem byteSize_nil : byteSize [] = 0 := by
  simp [byteSize]

@[simp] theorem byteSize_cons (c : Char) (text : List Char) :
    byteSize (c :: text) = c.utf8Size + byteSize text := by
  simp [byteSize, String.ofList_cons]

@[simp] theorem byteSize_append (text more : List Char) :
    byteSize (text ++ more) = byteSize text + byteSize more := by
  simp [byteSize]

theorem byteSize_pos {text : List Char} (h : text ≠ []) : 0 < byteSize text := by
  obtain ⟨c, rest, rfl⟩ := List.exists_cons_of_ne_nil h
  have := c.utf8Size_pos
  rw [byteSize_cons]
  omega

theorem byteSize_eq_length {text : List Char} (h : ∀ c ∈ text, c.utf8Size = 1) :
    byteSize text = text.length := by
  induction text with
  | nil => rfl
  | cons c text ih =>
    obtain ⟨hc, hw⟩ := List.forall_mem_cons.1 h
    rw [byteSize_cons, hc, ih hw, List.length_cons, Nat.add_comm]

@[simp] theorem byteOffset_zero (text : List Char) : byteOffset text 0 = 0 := by
  simp [byteOffset]

@[simp] theorem byteOffset_cons_succ (c : Char) (text : List Char) (i : Nat) :
    byteOffset (c :: text) (i + 1) = c.utf8Size + byteOffset text i := by
  simp [byteOffset]

theorem take_append_drop_take {i j : Nat} (h : i ≤ j) (text : List Char) :
    text.take i ++ (text.take j).drop i = text.take j := by
  conv => rhs; rw [← List.take_append_drop i (text.take j)]
  rw [List.take_take, Nat.min_eq_left h]

/-- Each character takes a byte or more. -/
theorem byteOffset_lt {text : List Char} {i j : Nat} (h : i < j) (hj : j ≤ text.length) :
    byteOffset text i < byteOffset text j := by
  have hne : (text.take j).drop i ≠ [] := by
    rw [ne_eq, List.drop_eq_nil_iff, List.length_take]
    omega
  have := byteSize_pos hne
  rw [byteOffset, byteOffset, ← take_append_drop_take (Nat.le_of_lt h), byteSize_append]
  omega

theorem le_of_byteOffset_le {text : List Char} {i j : Nat} (hi : i ≤ text.length)
    (h : byteOffset text i ≤ byteOffset text j) : i ≤ j := by
  rcases Nat.lt_or_ge j i with hlt | hle
  · have := byteOffset_lt hlt hi
    omega
  · exact hle

theorem byteOffset_eq_zero_iff {text : List Char} {i : Nat} (h : i ≤ text.length) :
    byteOffset text i = 0 ↔ i = 0 := by
  constructor
  · intro hoffset
    have hle : byteOffset text i ≤ byteOffset text 0 :=
      Nat.le_of_eq (hoffset.trans (byteOffset_zero text).symm)
    exact Nat.le_zero.1 (le_of_byteOffset_le h hle)
  · rintro rfl
    exact byteOffset_zero text

/-! ## Slices -/

theorem isBoundary_iff {text : List Char} {i : Nat} :
    IsBoundary (String.ofList text) i ↔ ∃ pre post, text = pre ++ post ∧ i = byteSize pre := by
  rw [IsBoundary, String.Pos.Raw.isValid_ofList]
  constructor
  · rintro ⟨n, hn⟩
    exact ⟨text.take n, text.drop n, (List.take_append_drop n text).symm, hn⟩
  · rintro ⟨pre, post, rfl, rfl⟩
    exact ⟨pre.length, by rw [List.take_left]; rfl⟩

/-- Every boundary is the offset of a character or of the end. -/
theorem exists_byteOffset_eq {text : List Char} {i : Nat} (h : IsBoundary (String.ofList text) i) :
    ∃ n, n ≤ text.length ∧ byteOffset text n = i := by
  obtain ⟨pre, post, rfl, rfl⟩ := isBoundary_iff.1 h
  exact ⟨pre.length, by simp, by rw [byteOffset, List.take_left]⟩

/-- A text cut in three has its middle piece between the sizes of what stands before its ends. -/
theorem slice_append (pre w post : List Char) :
    slice (String.ofList (pre ++ (w ++ post))) (byteSize pre) (byteSize pre + byteSize w) =
      .ok (String.ofList w) := by
  have hstart : IsBoundary (String.ofList (pre ++ (w ++ post))) (byteSize pre) :=
    isBoundary_iff.2 ⟨pre, w ++ post, rfl, rfl⟩
  have hstop : IsBoundary (String.ofList (pre ++ (w ++ post))) (byteSize pre + byteSize w) :=
    isBoundary_iff.2 ⟨pre ++ w, post, by simp, by simp⟩
  rw [slice, dif_pos ⟨hstart, hstop, Nat.le_add_right _ _⟩]
  congr 1
  rw [← String.toByteArray_inj, String.toByteArray_extract]
  have hsize (text : List Char) : byteSize text = text.utf8Encode.size := by
    rw [byteSize, ← String.size_toByteArray, String.toByteArray_ofList]
  -- The slice takes nothing of what stands before it.
  have hpre : pre.utf8Encode.extract pre.utf8Encode.size
      (pre.utf8Encode.size + w.utf8Encode.size) = ByteArray.empty :=
    ByteArray.extract_eq_empty_iff.2 (Nat.min_le_right _ _)
  simp [ByteArray.extract_append, hsize, hpre]

example : slice "aéb" 1 3 = .ok "é" := by rfl

example : slice "aéb" 1 2 = .error ⟨"aéb", 1, 2⟩ := by rfl

end Lexing
