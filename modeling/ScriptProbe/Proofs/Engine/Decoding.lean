import ScriptProbe.Proofs.Bytes.Cut
import ScriptProbe.Proofs.Engine.Transcript
import ScriptProbe.Proofs.Text.Split

/-! Lines decoded one by one are the lines of the whole output decoded at once. -/
namespace ScriptProbe.Transcript

open ScriptProbe.Text

variable {bytes part last : List UInt8} {ended : List (List UInt8)} {lines : List (List Char)}
    {line : List Char}

/-! ### Lines of a text -/

/-- A text cut at its line feeds. Behind the last one no line opens. -/
def linesOfText (text : List Char) : List (List Char) :=
  let pieces := split '\n' text
  if pieces.getLast? = some [] then pieces.dropLast else pieces

theorem split_feeds (hlines : ∀ line ∈ lines, '\n' ∉ line) (hline : '\n' ∉ line) :
    split '\n' (lines.flatMap (· ++ ['\n']) ++ line) = lines ++ [line] := by
  have hjoined := intercalate_append '\n' lines line []
  rw [List.flatMap_nil, List.append_nil] at hjoined
  rw [← hjoined]
  refine split_intercalate (by simp) ?_
  intro piece hpiece
  rcases List.mem_append.1 hpiece with hmem | hmem
  · exact hlines piece hmem
  · rwa [List.mem_singleton.1 hmem]

theorem linesOfText_feeds (hlines : ∀ line ∈ lines, '\n' ∉ line) (hline : '\n' ∉ line) :
    linesOfText (lines.flatMap (· ++ ['\n']) ++ line) =
      lines ++ if line = [] then [] else [line] := by
  rw [linesOfText, split_feeds hlines hline]
  by_cases hnil : line = [] <;> simp [hnil]

/-! ### Decoding line by line -/

theorem feed_not_mem_lossy (h : lineFeed ∉ part) : '\n' ∉ Utf8.lossy part :=
  fun hmem => h (Utf8.mem_of_mem_lossy (by decide) (by decide) hmem)

/-- A line feed is decoded as one, wherever it stands, and what stands on either side is decoded
alone. -/
theorem lossy_feed (front behind : List UInt8) :
    Utf8.lossy (front ++ lineFeed :: behind) = Utf8.lossy front ++ '\n' :: Utf8.lossy behind :=
  Utf8.lossy_ascii (by decide) front behind

theorem lossy_parts (ended : List (List UInt8)) (last : List UInt8) :
    Utf8.lossy (ended.flatMap (· ++ [lineFeed]) ++ last) =
      (ended.map Utf8.lossy).flatMap (· ++ ['\n']) ++ Utf8.lossy last := by
  induction ended with
  | nil => rfl
  | cons part ended ih =>
    rw [List.flatMap_cons, List.append_assoc, List.append_assoc, List.singleton_append,
      lossy_feed, ih]
    simp

/-- The lines of the decoded output are those that are decoded one by one. -/
theorem linesOfText_lossy (bytes : List UInt8) :
    linesOfText (Utf8.lossy bytes) = (Bytes.cut lineFeed bytes).map Utf8.lossy := by
  obtain ⟨ended, last, hmarked⟩ := Bytes.exists_marked lineFeed bytes
  have hended : ∀ line ∈ ended.map Utf8.lossy, '\n' ∉ line :=
    List.forall_mem_map.2 fun part hpart => feed_not_mem_lossy (hmarked.ended_free part hpart)
  have hlast : '\n' ∉ Utf8.lossy last := feed_not_mem_lossy hmarked.last_free
  rw [Bytes.cut_eq_parts hmarked, ← hmarked.eq, lossy_parts, linesOfText_feeds hended hlast,
    Bytes.parts]
  by_cases hnil : last = [] <;> simp [hnil, Utf8.lossy_eq_nil]

theorem linesOf_eq_map_linesOfText (bytes : List UInt8) :
    linesOf bytes = (linesOfText (Utf8.lossy bytes)).map dropLineEnds := by
  rw [linesOfText_lossy, List.map_map]
  rfl

/-- The line feed that ends a line is not missed when the line is decoded without it. -/
theorem dropLineEnds_feed (part : List UInt8) :
    dropLineEnds (Utf8.lossy (part ++ [lineFeed])) = dropLineEnds (Utf8.lossy part) := by
  rw [lossy_feed]
  exact List.rdropWhile_concat_pos isLineEnd _ '\n' rfl

theorem read_lossy (bytes : List UInt8) : read (Utf8.encode (Utf8.lossy bytes)) = read bytes := by
  rw [read, read, linesOf_eq_map_linesOfText, linesOf_eq_map_linesOfText, Utf8.lossy_encode]

/-! ### Lines on either side of a line feed -/

theorem linesOf_append_feed (front behind : List UInt8) :
    linesOf (front ++ lineFeed :: behind) = linesOf (front ++ [lineFeed]) ++ linesOf behind := by
  rw [linesOf, Bytes.cut_append_cons_mark, List.map_append]
  rfl

theorem length_linesOf_feed (front : List UInt8) :
    (linesOf (front ++ [lineFeed])).length = front.count lineFeed + 1 := by
  rw [linesOf, List.length_map, Bytes.length_cut_mark]

theorem count_feed_lossy (bytes : List UInt8) :
    (Utf8.lossy bytes).count '\n' = bytes.count lineFeed := by
  obtain ⟨ended, last, hmarked⟩ := Bytes.exists_marked lineFeed bytes
  have hended : ∀ line ∈ ended.map Utf8.lossy, '\n' ∉ line :=
    List.forall_mem_map.2 fun part hpart => feed_not_mem_lossy (hmarked.ended_free part hpart)
  have hlast : '\n' ∉ Utf8.lossy last := feed_not_mem_lossy hmarked.last_free
  rw [← hmarked.eq, lossy_parts, Bytes.count_marks hended hlast,
    Bytes.count_marks hmarked.ended_free hmarked.last_free, List.length_map]

/-- It makes no difference whether an output is cut into lines before it is decoded, with the line
feeds or without them, or after that; so it reads as the text does that it is decoded to. Whatever
bytes stand around a line feed, it stays one, and the lines before it and behind it are those of the
bytes before it and behind it. -/
theorem linesOf_lossy (bytes : List UInt8) :
    linesOf bytes = (linesOfText (Utf8.lossy bytes)).map dropLineEnds ∧
    (∀ part, dropLineEnds (Utf8.lossy (part ++ [lineFeed])) = dropLineEnds (Utf8.lossy part)) ∧
    read (Utf8.encode (Utf8.lossy bytes)) = read bytes ∧
    (Utf8.lossy bytes).count '\n' = bytes.count lineFeed ∧
    ∀ front behind,
      Utf8.lossy (front ++ lineFeed :: behind) = Utf8.lossy front ++ '\n' :: Utf8.lossy behind ∧
      linesOf (front ++ lineFeed :: behind) = linesOf (front ++ [lineFeed]) ++ linesOf behind ∧
      (linesOf (front ++ [lineFeed])).length = front.count lineFeed + 1 :=
  ⟨linesOf_eq_map_linesOfText bytes, dropLineEnds_feed, read_lossy bytes, count_feed_lossy bytes,
    fun front behind =>
      ⟨lossy_feed front behind, linesOf_append_feed front behind, length_linesOf_feed front⟩⟩

/-- A character that is cut off by a line feed, and a byte that begins none. -/
example :
    linesOf [0x61, 0xC3, 0x0A, 0xFF, 0x0D, 0x0A, 0x62] =
      [['a', Utf8.replacement], [Utf8.replacement], ['b']] := by decide

end ScriptProbe.Transcript
