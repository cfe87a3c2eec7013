import TypeScribe.Scan.DocSummary

/-!
# What readers leave

A reader only ever takes text off the front, so what it leaves is a suffix of what it was given. A
summary block is never empty: what stands behind it is shorter.
-/

namespace TypeScribe.Scan

open Text

variable {text rest : List Char}

theorem skipSpaces_suffix (text : List Char) : skipSpaces text <:+ text :=
  List.dropWhile_suffix _

theorem skipBlanks_suffix (text : List Char) : skipBlanks text <:+ text :=
  List.dropWhile_suffix _

theorem exists_of_readNewline? (h : readNewline? text = some rest) :
    ∃ newline ∈ [['\n'], ['\r', '\n']], text = newline ++ rest := by
  unfold readNewline? at h
  split at h
  · obtain rfl := Option.some.inj h
    exact ⟨['\n'], by simp, rfl⟩
  · obtain rfl := Option.some.inj h
    exact ⟨['\r', '\n'], by simp, rfl⟩
  · simp at h

theorem suffix_of_readNewline? (h : readNewline? text = some rest) : rest <:+ text := by
  obtain ⟨newline, _, rfl⟩ := exists_of_readNewline? h
  exact List.suffix_append newline rest

theorem suffix_of_readText? {fixed : String} (h : readText? fixed text = some rest) :
    rest <:+ text :=
  ⟨fixed.toList, (eq_append_of_readText? h).symm⟩

/-! ### Summary blocks -/

theorem suffix_of_readSummaryLine? {line : SummaryLine}
    (h : readSummaryLine? text = some (line, rest)) : rest <:+ text := by
  obtain ⟨content, hcontent, h⟩ := Option.bind_eq_some_iff.mp h
  obtain ⟨after, hafter, heq⟩ := Option.bind_eq_some_iff.mp h
  obtain ⟨_, rfl⟩ := by simpa using heq
  exact (suffix_of_readNewline? hafter).trans ((List.dropWhile_suffix _).trans
    ((suffix_of_readText? hcontent).trans (skipBlanks_suffix text)))

theorem append_suffix_of_readTag? {tag : String} (h : readTag? tag text = some rest) :
    tag.toList ++ rest <:+ text := by
  obtain ⟨after, hslashes, htag⟩ := Option.bind_eq_some_iff.mp h
  rw [← eq_append_of_readText? htag]
  exact (skipBlanks_suffix after).trans (suffix_of_readText? hslashes)

theorem suffix_of_readTag? {tag : String} (h : readTag? tag text = some rest) : rest <:+ text :=
  (List.suffix_append tag.toList rest).trans (append_suffix_of_readTag? h)

theorem append_suffix_of_readSummaryLines? {lines : List SummaryLine}
    (h : readSummaryLines? text = some (lines, rest)) : "</summary>".toList ++ rest <:+ text := by
  induction hlength : text.length using Nat.strongRecOn generalizing text lines with
  | ind length ih =>
      subst hlength
      rw [readSummaryLines?] at h
      split at h
      · next after htag =>
          obtain ⟨_, rfl⟩ := by simpa using h
          exact (append_suffix_of_readTag? htag).trans (skipBlanks_suffix text)
      · split at h
        · simp at h
        · next line after hline =>
            obtain ⟨⟨others, last⟩, hothers, heq⟩ := Option.map_eq_some_iff.mp h
            obtain ⟨_, rfl⟩ := by simpa using heq
            exact (ih _ (length_lt_of_readSummaryLine? hline) hothers rfl).trans
              (suffix_of_readSummaryLine? hline)

theorem suffix_of_readSummaryLines? {lines : List SummaryLine}
    (h : readSummaryLines? text = some (lines, rest)) : rest <:+ text :=
  (List.suffix_append _ rest).trans (append_suffix_of_readSummaryLines? h)

theorem length_lt_of_readSummary? {lines : List SummaryLine}
    (h : readSummary? text = some (lines, rest)) : rest.length < text.length := by
  obtain ⟨after, htag, h⟩ := Option.bind_eq_some_iff.mp h
  obtain ⟨line, hline, h⟩ := Option.bind_eq_some_iff.mp h
  have hlt := length_lt_of_readNewline? hline
  have hblanks := (skipBlanks_suffix after).length_le
  have htag' := (suffix_of_readTag? htag).length_le
  have hlines := (suffix_of_readSummaryLines? h).length_le
  omega

end TypeScribe.Scan
