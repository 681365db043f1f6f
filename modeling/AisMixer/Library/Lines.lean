import AisMixer.Library.Text

/-!
# Streams of terminated lines

A separator cuts a stream into terminated lines and a rest that is not terminated yet. The
lemmas describe both as the stream grows at its end, which is how a framer sees it.
-/

namespace AisMixer.Library

section Separator

variable {α : Type} [DecidableEq α] (sep : α)

/-- The lines of a stream that a separator ends. -/
def terminatedLines (stream : List α) : List (List α) := (stream.splitOn sep).dropLast

/-- What follows the last separator. -/
def unterminatedLine (stream : List α) : List α :=
  (stream.splitOn sep).getLast (List.splitOn_ne_nil sep stream)

lemma terminatedLines_append_unterminatedLine (stream : List α) :
    terminatedLines sep stream ++ [unterminatedLine sep stream] = stream.splitOn sep :=
  List.dropLast_append_getLast _

lemma lines_unique {stream : List α} {lines : List (List α)} {rest : List α}
    (h : stream.splitOn sep = lines ++ [rest]) :
    terminatedLines sep stream = lines ∧ unterminatedLine sep stream = rest := by
  rw [← terminatedLines_append_unterminatedLine] at h
  obtain ⟨hlines, hrest⟩ := List.append_inj' h rfl
  exact ⟨hlines, List.singleton_inj.mp hrest⟩

@[simp] lemma terminatedLines_nil : terminatedLines sep [] = [] := rfl

@[simp] lemma unterminatedLine_nil : unterminatedLine sep [] = [] := rfl

lemma splitOn_snoc_self (stream : List α) :
    (stream ++ [sep]).splitOn sep = stream.splitOn sep ++ [[]] := by
  rw [List.splitOn_append_cons_self, List.splitOn_nil]

/-- The separator ends the line that was open. -/
lemma terminatedLines_snoc_self (stream : List α) :
    terminatedLines sep (stream ++ [sep]) =
      terminatedLines sep stream ++ [unterminatedLine sep stream] := by
  apply (lines_unique sep _).1
  · exact []
  · rw [splitOn_snoc_self, terminatedLines_append_unterminatedLine]

lemma unterminatedLine_snoc_self (stream : List α) :
    unterminatedLine sep (stream ++ [sep]) = [] := by
  apply (lines_unique sep _).2
  · exact stream.splitOn sep
  · exact splitOn_snoc_self sep stream

variable {sep}

lemma splitOn_snoc_of_ne {a : α} (ha : a ≠ sep) (stream : List α) :
    (stream ++ [a]).splitOn sep =
      terminatedLines sep stream ++ [unterminatedLine sep stream ++ [a]] := by
  induction stream with
  | nil => simp [List.splitOn_cons_eq_if_modifyHead, ha]
  | cons b stream ih =>
    have hrest := terminatedLines_append_unterminatedLine sep stream
    have hcons := List.splitOn_cons_eq_if_modifyHead (a := sep) b stream
    rw [List.cons_append, List.splitOn_cons_eq_if_modifyHead, ih]
    by_cases hb : b = sep
    · have hsplit : (b :: stream).splitOn sep =
          ([] :: terminatedLines sep stream) ++ [unterminatedLine sep stream] := by
        rw [hcons, ← hrest]
        simp [hb]
      obtain ⟨hlines, hopen⟩ := lines_unique sep hsplit
      rw [hlines, hopen]
      simp [hb]
    · cases hlines : terminatedLines sep stream with
      | nil =>
        have hsplit : (b :: stream).splitOn sep = [] ++ [b :: unterminatedLine sep stream] := by
          rw [hcons, ← hrest, hlines]
          simp [hb]
        obtain ⟨hnil, hopen⟩ := lines_unique sep hsplit
        rw [hnil, hopen]
        simp [hb]
      | cons first others =>
        have hsplit : (b :: stream).splitOn sep =
            ((b :: first) :: others) ++ [unterminatedLine sep stream] := by
          rw [hcons, ← hrest, hlines]
          simp [hb]
        obtain ⟨hcut, hopen⟩ := lines_unique sep hsplit
        rw [hcut, hopen]
        simp [hb]

/-- Any other item goes to the open line. -/
lemma terminatedLines_snoc_of_ne {a : α} (ha : a ≠ sep) (stream : List α) :
    terminatedLines sep (stream ++ [a]) = terminatedLines sep stream :=
  (lines_unique sep (splitOn_snoc_of_ne ha stream)).1

lemma unterminatedLine_snoc_of_ne {a : α} (ha : a ≠ sep) (stream : List α) :
    unterminatedLine sep (stream ++ [a]) = unterminatedLine sep stream ++ [a] :=
  (lines_unique sep (splitOn_snoc_of_ne ha stream)).2

/-! ### Taking lines off the front -/

variable (sep) in
/-- The lines of a finished stream: what follows the last separator is one too, unless empty. -/
def streamLines (stream : List α) : List (List α) :=
  terminatedLines sep stream ++
    if unterminatedLine sep stream = [] then [] else [unterminatedLine sep stream]

lemma streamLines_of_not_mem {stream : List α} (h : sep ∉ stream) :
    streamLines sep stream = if stream = [] then [] else [stream] := by
  have hsplit : stream.splitOn sep = [] ++ [stream] := List.splitOn_eq_singleton h
  obtain ⟨hlines, hopen⟩ := lines_unique sep hsplit
  rw [streamLines, hlines, hopen, List.nil_append]

lemma streamLines_cut {line : List α} (h : sep ∉ line) (rest : List α) :
    streamLines sep (line ++ sep :: rest) = line :: streamLines sep rest := by
  have hsplit : (line ++ sep :: rest).splitOn sep =
      (line :: terminatedLines sep rest) ++ [unterminatedLine sep rest] := by
    rw [List.splitOn_append_cons_self_of_not_mem h, List.cons_append,
      terminatedLines_append_unterminatedLine]
  obtain ⟨hlines, hopen⟩ := lines_unique sep hsplit
  rw [streamLines, hlines, hopen, List.cons_append]
  rfl

/-- The first separator of a stream cuts off its first line. -/
lemma eq_cut_of_idxOf? {stream : List α} {i : Nat} (h : stream.idxOf? sep = some i) :
    stream = stream.take i ++ sep :: stream.drop (i + 1) ∧ sep ∉ stream.take i := by
  obtain ⟨hi, hget, hbefore⟩ := List.idxOf?_eq_some_iff.mp h
  constructor
  · have hdrop := List.take_append_drop i stream
    rw [List.drop_eq_getElem_cons hi, hget] at hdrop
    exact hdrop.symm
  · intro hmem
    obtain ⟨j, hj, hjget⟩ := List.getElem_of_mem hmem
    rw [List.length_take] at hj
    rw [List.getElem_take] at hjget
    exact hbefore j (by omega) hjget

omit [DecidableEq α] in
/-- A part without a separator is a front of the first line. -/
lemma front_of_line {part rest line lines : List α} (hpart : sep ∉ part)
    (h : part ++ rest = line ++ sep :: lines) :
    ∃ more, line = part ++ more ∧ rest = more ++ sep :: lines := by
  rcases List.append_eq_append_iff.mp h with ⟨more, hline, hrest⟩ | ⟨more, hfront, hlines⟩
  · exact ⟨more, hline, hrest⟩
  · cases more with
    | nil =>
      rw [List.append_nil] at hfront
      exact ⟨[], by rw [hfront, List.append_nil], hlines.symm⟩
    | cons a more =>
      obtain ⟨rfl, -⟩ := List.cons.inj hlines
      exact absurd (by rw [hfront]; simp) hpart

omit [DecidableEq α] in
/-- There is one way to cut off the first line. -/
lemma cut_unique {line line' rest rest' : List α} (hline : sep ∉ line) (hline' : sep ∉ line')
    (h : line ++ sep :: rest = line' ++ sep :: rest') : line = line' ∧ rest = rest' := by
  obtain ⟨more, hmore, hrest⟩ := front_of_line hline h
  cases more with
  | nil => exact ⟨by rw [hmore, List.append_nil], (List.cons.inj hrest).2⟩
  | cons a more =>
    obtain ⟨rfl, -⟩ := List.cons.inj hrest
    exact absurd (by rw [hmore]; simp) hline'

/-- The first line of a stream extends what is known of it. -/
lemma exists_streamLines_cons {part : List α} (hsep : sep ∉ part) (hpart : part ≠ [])
    (rest : List α) : ∃ more lines, streamLines sep (part ++ rest) = (part ++ more) :: lines := by
  cases hcut : rest.idxOf? sep with
  | none =>
    have hrest : sep ∉ rest := List.idxOf?_eq_none_iff.mp hcut
    refine ⟨rest, [], ?_⟩
    rw [streamLines_of_not_mem (by simp [hsep, hrest]), if_neg (by simp [hpart])]
  | some i =>
    obtain ⟨hrest, hline⟩ := eq_cut_of_idxOf? hcut
    refine ⟨rest.take i, streamLines sep (rest.drop (i + 1)), ?_⟩
    rw [← streamLines_cut (by simp [hsep, hline]), List.append_assoc, ← hrest]

end Separator

/-! ### Universal newlines -/

def lineFeed : UInt8 := 0x0A

def carriageReturn : UInt8 := 0x0D

/-- The stream with a line feed for each of its terminators LF, CR and CRLF. -/
def universalNewlines : Bytes → Bytes
  | [] => []
  | [byte] => if byte = carriageReturn then [lineFeed] else [byte]
  | byte :: next :: rest =>
    if byte = carriageReturn then
      if next = lineFeed then lineFeed :: universalNewlines rest
      else lineFeed :: universalNewlines (next :: rest)
    else byte :: universalNewlines (next :: rest)

section Snoc

variable {stream : Bytes}

/-- A line feed after a carriage return adds nothing. -/
lemma universalNewlines_snoc_pair (h : stream.getLast? = some carriageReturn) :
    universalNewlines (stream ++ [lineFeed]) = universalNewlines stream := by
  fun_induction universalNewlines stream with
  | case1 => simp at h
  | case2 => simp [universalNewlines]
  | case3 byte hne =>
    rw [List.getLast?_singleton, Option.some_inj] at h
    exact absurd h hne
  | case4 rest ih =>
    cases rest with
    | nil => simp [lineFeed, carriageReturn] at h
    | cons b rest =>
      have hrest := ih (by rwa [List.getLast?_cons_cons, List.getLast?_cons_cons] at h)
      simpa [universalNewlines] using hrest
  | case5 next rest hne ih =>
    have hrest := ih (by rwa [List.getLast?_cons_cons] at h)
    simp only [List.cons_append] at hrest
    simp [universalNewlines, hne, hrest]
  | case6 byte next rest hne ih =>
    have hrest := ih (by rwa [List.getLast?_cons_cons] at h)
    simp only [List.cons_append] at hrest
    simp [universalNewlines, hne, hrest]

/-- Any other byte is kept, a carriage return as a line feed. -/
lemma universalNewlines_snoc {byte : UInt8}
    (h : byte = lineFeed → stream.getLast? ≠ some carriageReturn) :
    universalNewlines (stream ++ [byte]) =
      universalNewlines stream ++ [if byte = carriageReturn then lineFeed else byte] := by
  fun_induction universalNewlines stream with
  | case1 =>
    by_cases hb : byte = carriageReturn
    · simp [universalNewlines, hb]
    · simp [universalNewlines, hb]
  | case2 =>
    have hb : byte ≠ lineFeed := fun hb => h hb rfl
    simp only [List.cons_append, List.nil_append, universalNewlines, if_pos, if_neg hb]
    split <;> rfl
  | case3 b hne =>
    simp only [List.cons_append, List.nil_append, universalNewlines, if_neg hne]
    split <;> rfl
  | case4 rest ih =>
    have hrest := ih (by
      intro hb
      cases rest with
      | nil => simp
      | cons b rest => exact (by simpa [List.getLast?_cons_cons] using h hb))
    simpa [universalNewlines] using hrest
  | case5 next rest hne ih =>
    have hrest := ih (by simpa [List.getLast?_cons_cons] using h)
    simp only [List.cons_append] at hrest
    simp [universalNewlines, hne, hrest]
  | case6 b next rest hne ih =>
    have hrest := ih (by simpa [List.getLast?_cons_cons] using h)
    simp only [List.cons_append] at hrest
    simp [universalNewlines, hne, hrest]

end Snoc

end AisMixer.Library
