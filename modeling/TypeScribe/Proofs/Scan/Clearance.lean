import TypeScribe.Proofs.Scan.AttributeLine
import TypeScribe.Proofs.Scan.Keywords
import TypeScribe.Proofs.Text.LineEnding
import TypeScribe.Scan.AutoProperty
import TypeScribe.Scan.PublicMember

/-!
# What readers take

Properties and headers run across lines and hold parts of free text, such as the body of a property or
whatever else stands in a header. Free text stays on its line, and something else stands before it
there; between lines there is only white space, words and marks. So each line of what is taken begins
with something else than a slash. This also says that something is taken.
-/

namespace TypeScribe.Scan

open Text

/-- Behind white space no line of the text begins with a slash. -/
structure NoCommentLine (text : List Char) : Prop where
  first : (skipSpaces text).head? ≠ some '/'
  later : ∀ before after, text = before ++ '\n' :: after → (skipSpaces after).head? ≠ some '/'

/-- What is taken off the front of `text` to leave `rest` has no comment line. -/
def Passes (text rest : List Char) : Prop :=
  ∃ taken, text = taken ++ rest ∧ NoCommentLine taken

/-- In addition, the last character that is taken is not white space. -/
def Closes (text rest : List Char) : Prop :=
  ∃ front c, text = front ++ c :: rest ∧ isSpace c = false ∧ NoCommentLine (front ++ [c])

/-- Behind white space the text goes on with something else than a slash. -/
def BeginsApart (text : List Char) : Prop :=
  ∃ c, (skipSpaces text).head? = some c ∧ c ≠ '/'

/-- Each line of the text but an empty last one begins with something else than a slash. -/
structure Uncommented (taken : List Char) : Prop where
  first : BeginsApart taken
  later : ∀ before after, taken = before ++ '\n' :: after → after = [] ∨ BeginsApart after

section Pieces

variable {left right text middle rest taken free content front : List Char} {c : Char}

theorem head?_skipSpaces_append (left right : List Char) :
    (skipSpaces (left ++ right)).head? = (skipSpaces left).head?.or (skipSpaces right).head? := by
  simp only [skipSpaces, List.dropWhile_append]
  cases List.dropWhile isSpace left with
  | nil => simp
  | cons c more => simp

theorem NoCommentLine.append (hleft : NoCommentLine left) (hright : NoCommentLine right) :
    NoCommentLine (left ++ right) := by
  have hlines : ∀ {line : List Char}, (skipSpaces line).head? ≠ some '/' →
      (skipSpaces (line ++ right)).head? ≠ some '/' := by
    intro line hline h
    rw [head?_skipSpaces_append, Option.or_eq_some_iff] at h
    rcases h with h | ⟨_, h⟩
    · exact hline h
    · exact hright.first h
  refine ⟨hlines hleft.first, fun before after heq => ?_⟩
  rcases List.append_eq_append_iff.mp heq with ⟨between, _, hfeed⟩ | ⟨between, hfeed, hafter⟩
  · exact hright.later between after hfeed
  · rcases List.cons_eq_append_iff.mp hafter with ⟨_, hmore⟩ | ⟨more, rfl, rfl⟩
    · exact hright.later [] after hmore
    · exact hlines (hleft.later before more hfeed)

theorem noCommentLine_of_not_mem (h : '/' ∉ taken) : NoCommentLine taken := by
  have hlines : ∀ {line : List Char}, (skipSpaces line).head? = some '/' → '/' ∈ line :=
    fun hline => (skipSpaces_suffix _).subset (List.mem_of_mem_head? hline)
  refine ⟨fun hfirst => h (hlines hfirst), ?_⟩
  rintro before after rfl hlater
  exact h (List.mem_append_right _ (List.mem_cons_of_mem _ (hlines hlater)))

/-- A line may go on with anything once something else than a slash stands on it. -/
theorem noCommentLine_cons (hspace : isSpace c = false) (hslash : c ≠ '/') (hfree : '\n' ∉ free) :
    NoCommentLine (c :: free) := by
  have hfirst : skipSpaces (c :: free) = c :: free :=
    List.dropWhile_cons_of_neg (by simpa using hspace)
  refine ⟨?_, fun before after heq => ?_⟩
  · rw [hfirst]
    simpa using hslash
  · have hmem : '\n' ∈ c :: free := by simp [heq]
    rcases List.mem_cons.mp hmem with rfl | hmem
    · exact absurd hspace (by decide)
    · exact absurd hmem hfree

theorem Passes.refl (text : List Char) : Passes text text :=
  ⟨[], rfl, noCommentLine_of_not_mem List.not_mem_nil⟩

theorem Passes.trans (h : Passes text middle) (hrest : Passes middle rest) : Passes text rest := by
  obtain ⟨taken, rfl, htaken⟩ := h
  obtain ⟨more, rfl, hmore⟩ := hrest
  exact ⟨taken ++ more, (List.append_assoc _ _ _).symm, htaken.append hmore⟩

theorem passes_append (h : '/' ∉ taken) (rest : List Char) : Passes (taken ++ rest) rest :=
  ⟨taken, rfl, noCommentLine_of_not_mem h⟩

theorem passes_cons (hc : c ≠ '/') (rest : List Char) : Passes (c :: rest) rest := by
  have hmem : '/' ∉ [c] := by simpa using hc.symm
  exact passes_append hmem rest

theorem passes_dropWhile {p : Char → Bool} (hp : p '/' = false) (text : List Char) :
    Passes text (text.dropWhile p) := by
  refine ⟨text.takeWhile p, List.takeWhile_append_dropWhile.symm, noCommentLine_of_not_mem ?_⟩
  intro hmem
  exact absurd (List.mem_takeWhile_imp hmem) (by simp [hp])

theorem passes_getD {read : Option (List Char)} (h : ∀ rest, read = some rest → Passes text rest) :
    Passes text (read.getD text) := by
  cases hread : read with
  | none => exact .refl text
  | some rest => exact h rest hread

theorem Passes.closes (h : Passes text middle) (hrest : Closes middle rest) : Closes text rest := by
  obtain ⟨taken, rfl, htaken⟩ := h
  obtain ⟨front, c, rfl, hc, hfront⟩ := hrest
  refine ⟨taken ++ front, c, (List.append_assoc _ _ _).symm, hc, ?_⟩
  rw [List.append_assoc]
  exact htaken.append hfront

theorem closes_cons (hspace : isSpace c = false) (hslash : c ≠ '/') (rest : List Char) :
    Closes (c :: rest) rest :=
  ⟨[], c, rfl, hspace, noCommentLine_cons hspace hslash List.not_mem_nil⟩

theorem BeginsApart.append (h : BeginsApart text) (rest : List Char) : BeginsApart (text ++ rest) := by
  obtain ⟨c, hc, hslash⟩ := h
  refine ⟨c, ?_, hslash⟩
  rw [head?_skipSpaces_append, hc, Option.some_or]

theorem BeginsApart.head?_ne (h : BeginsApart text) : (skipSpaces text).head? ≠ some '/' := by
  obtain ⟨c, hc, hslash⟩ := h
  rw [hc]
  simpa using hslash

theorem beginsApart_concat (hc : isSpace c = false)
    (hfront : (skipSpaces (front ++ [c])).head? ≠ some '/') : BeginsApart (front ++ [c]) := by
  have hlast : skipSpaces [c] = [c] := List.dropWhile_cons_of_neg (by simpa using hc)
  rw [head?_skipSpaces_append, hlast] at hfront
  rw [BeginsApart, head?_skipSpaces_append, hlast]
  cases hfirst : (skipSpaces front).head? with
  | none =>
      rw [hfirst] at hfront
      exact ⟨c, rfl, by simpa using hfront⟩
  | some d =>
      rw [hfirst] at hfront
      exact ⟨d, rfl, by simpa using hfront⟩

/-- The last character belongs to the last part. -/
theorem eq_nil_or_eq_concat {before after : List Char} {d : Char}
    (h : front ++ [c] = before ++ d :: after) :
    after = [] ∨ ∃ more, after = more ++ [c] ∧ front = before ++ d :: more := by
  rcases List.eq_nil_or_concat' after with rfl | ⟨more, e, rfl⟩
  · exact .inl rfl
  · have hsplit : front ++ [c] = (before ++ d :: more) ++ [e] := by simpa using h
    obtain ⟨hfront, hlast⟩ := List.append_inj' hsplit rfl
    obtain rfl := List.singleton_inj.mp hlast
    exact .inr ⟨more, rfl, hfront⟩

/-- As the last character is visible, each line has one. -/
theorem Closes.uncommented (h : Closes text rest) :
    ∃ taken, text = taken ++ rest ∧ Uncommented taken := by
  obtain ⟨front, c, rfl, hc, hlines⟩ := h
  refine ⟨front ++ [c], by simp, beginsApart_concat hc hlines.first, fun before after heq => ?_⟩
  rcases eq_nil_or_eq_concat heq with hnil | ⟨more, rfl, _⟩
  · exact .inl hnil
  · exact .inr (beginsApart_concat hc (hlines.later before (more ++ [c]) heq))

theorem uncommented_of_not_mem (hbegins : BeginsApart content) (hfeed : '\n' ∉ content) :
    Uncommented content := by
  refine ⟨hbegins, ?_⟩
  rintro before after rfl
  exact absurd (by simp) hfeed

theorem uncommented_append_feed (hbegins : BeginsApart content) (hfeed : '\n' ∉ content) :
    Uncommented (content ++ ['\n']) := by
  refine ⟨hbegins.append _, fun before after heq => ?_⟩
  rcases eq_nil_or_eq_concat heq with hnil | ⟨more, _, rfl⟩
  · exact .inl hnil
  · exact absurd (by simp) hfeed

theorem length_lt_of_uncommented (h : ∃ taken, text = taken ++ rest ∧ Uncommented taken) :
    rest.length < text.length := by
  obtain ⟨taken, rfl, htaken⟩ := h
  cases taken with
  | nil =>
      obtain ⟨c, hc, _⟩ := htaken.first
      simp [skipSpaces] at hc
  | cons c taken =>
      simp only [List.length_append, List.length_cons]
      omega

end Pieces

variable {text rest : List Char}

/-! ### Words and white space -/

theorem passes_skipSpaces (text : List Char) : Passes text (skipSpaces text) :=
  passes_dropWhile (by decide) text

theorem passes_skipBlanks (text : List Char) : Passes text (skipBlanks text) :=
  passes_dropWhile (by decide) text

theorem passes_of_readSpaces? (h : readSpaces? text = some rest) : Passes text rest := by
  cases text with
  | nil => simp [readSpaces?] at h
  | cons c text =>
      rw [readSpaces?] at h
      split at h
      · next hc =>
          obtain rfl := Option.some.inj h
          refine .trans (passes_cons ?_ text) (passes_skipSpaces text)
          rintro rfl
          exact absurd hc (by decide)
      · simp at h

theorem passes_of_readText? {fixed : String} (hfixed : '/' ∉ fixed.toList)
    (h : readText? fixed text = some rest) : Passes text rest := by
  rw [eq_append_of_readText? h]
  exact passes_append hfixed rest

theorem not_mem_of_isWord {word : List Char} (hword : IsWord word) {c : Char}
    (hc : isAsciiWord c = false) : c ∉ word :=
  fun hmem => absurd (hword.2 c hmem) (by simp [hc])

theorem passes_of_readWord? {word : List Char} (h : readWord? text = some (word, rest)) :
    Passes text rest := by
  rw [eq_append_of_readWord? h]
  exact passes_append (not_mem_of_isWord (isWord_of_readWord? h) (by decide)) rest

theorem passes_of_readKeyword? {words : List String} (h : readKeyword? words text = some rest) :
    Passes text rest := by
  obtain ⟨⟨word, after⟩, hword, hrest⟩ := Option.bind_eq_some_iff.mp h
  dsimp only at hrest
  split at hrest
  · exact (passes_of_readWord? hword).trans (passes_of_readSpaces? hrest)
  · simp at hrest

theorem passes_of_mem_afterKeywords {words : List String} (h : rest ∈ afterKeywords words text) :
    Passes text rest := by
  induction hlength : text.length using Nat.strongRecOn generalizing text with
  | ind length ih =>
      subst hlength
      cases hkeyword : readKeyword? words text with
      | none =>
          rw [afterKeywords_of_none hkeyword, List.mem_singleton] at h
          exact h ▸ .refl text
      | some after =>
          rw [afterKeywords_of_some hkeyword, List.mem_append, List.mem_singleton] at h
          rcases h with h | rfl
          · have hlt := length_lt_of_readKeyword? hkeyword
            exact (passes_of_readKeyword? hkeyword).trans (ih _ hlt h rfl)
          · exact .refl rest

/-! ### Properties -/

theorem passes_skipAccess (text : List Char) : Passes text (skipAccess text) :=
  passes_getD fun _ h => passes_of_readKeyword? h

theorem passes_of_readSemicolon? (h : readSemicolon? text = some rest) : Passes text rest := by
  unfold readSemicolon? at h
  split at h
  · next after hafter =>
      obtain rfl := Option.some.inj h
      have hsemicolon := passes_skipSpaces text
      rw [hafter] at hsemicolon
      exact hsemicolon.trans ((passes_cons (by decide) after).trans (passes_skipSpaces after))
  · simp at h

theorem passes_of_readGetter? (h : readGetter? text = some rest) : Passes text rest := by
  obtain ⟨after, hget, hsemicolon⟩ := Option.bind_eq_some_iff.mp h
  exact (passes_skipAccess text).trans
    ((passes_of_readText? (by decide) hget).trans (passes_of_readSemicolon? hsemicolon))

theorem passes_of_readSetter? (h : readSetter? text = some rest) : Passes text rest := by
  obtain ⟨after, hset, hsemicolon⟩ := Option.bind_eq_some_iff.mp h
  refine (passes_skipAccess text).trans (.trans ?_ (passes_of_readSemicolon? hsemicolon))
  rw [Option.orElse_eq_or, Option.or_eq_some_iff] at hset
  rcases hset with hset | ⟨_, hinit⟩
  · exact passes_of_readText? (by decide) hset
  · exact passes_of_readText? (by decide) hinit

/-- A statement ends on its line. -/
theorem exists_of_readStatement? (h : readStatement? text = some rest) :
    ∃ free, text = free ++ ';' :: rest ∧ '\n' ∉ free := by
  unfold readStatement? at h
  split at h
  · next after hafter =>
      obtain rfl := Option.some.inj h
      refine ⟨text.takeWhile fun c => c != ';' && !isLineBreak c, ?_, fun hmem => ?_⟩
      · rw [← hafter, List.takeWhile_append_dropWhile]
      · exact absurd (List.mem_takeWhile_imp hmem) (by decide)
  · simp at h

theorem closes_of_readStatement? {c : Char} (hspace : isSpace c = false) (hslash : c ≠ '/')
    (h : readStatement? text = some rest) : Closes (c :: text) rest := by
  obtain ⟨free, rfl, hfree⟩ := exists_of_readStatement? h
  have hline : NoCommentLine (c :: (free ++ [';'])) :=
    noCommentLine_cons hspace hslash (by simpa using hfree)
  exact ⟨c :: free, ';', rfl, by decide, hline⟩

theorem closes_of_readInitializer? (h : readInitializer? text = some rest) : Closes text rest := by
  unfold readInitializer? at h
  split at h
  · next after hafter =>
      have hequals := passes_skipBlanks text
      rw [hafter] at hequals
      exact hequals.closes (closes_of_readStatement? (by decide) (by decide) h)
  · simp at h

theorem closes_of_readAccessors? (h : readAccessors? text = some rest) : Closes text rest := by
  obtain ⟨getter, hgetter, h⟩ := Option.bind_eq_some_iff.mp h
  have hpasses := ((passes_skipSpaces text).trans (passes_of_readGetter? hgetter)).trans
    (passes_getD fun _ hset => passes_of_readSetter? hset)
  split at h
  · next after hafter =>
      obtain rfl := Option.some.inj h
      rw [hafter] at hpasses
      refine hpasses.closes ?_
      cases hinitializer : readInitializer? after with
      | none => exact closes_cons (by decide) (by decide) after
      | some rest =>
          exact (passes_cons (by decide) after).closes (closes_of_readInitializer? hinitializer)
  · simp at h

theorem closes_of_readBody? (h : readBody? text = some rest) : Closes text rest := by
  unfold readBody? at h
  split at h
  · exact (passes_cons (by decide) _).closes (closes_of_readAccessors? h)
  · exact (passes_cons (by decide) _).closes
      (closes_of_readStatement? (by decide) (by decide) h)
  · simp at h

/-- The generic part of a type stays on its line. -/
theorem exists_of_mem_afterGeneric (h : rest ∈ afterGeneric text) :
    ∃ free, text = free ++ rest ∧ '\n' ∉ free := by
  induction text with
  | nil => simp [afterGeneric] at h
  | cons c text ih =>
      have hcons : c ≠ '\n' → (∃ free, text = free ++ rest ∧ '\n' ∉ free) →
          ∃ free, c :: text = free ++ rest ∧ '\n' ∉ free := by
        rintro hc ⟨free, rfl, hfree⟩
        exact ⟨c :: free, rfl, by simp [hfree, hc.symm]⟩
      rw [afterGeneric] at h
      split at h
      · next hangle =>
          have hc : c ≠ '\n' := by
            rw [hangle]
            decide
          rcases List.mem_cons.mp h with rfl | h
          · exact hcons hc ⟨[], rfl, List.not_mem_nil⟩
          · exact hcons hc (ih h)
      · split at h
        · simp at h
        · next hother =>
            refine hcons ?_ (ih h)
            rintro rfl
            exact hother (by decide)

theorem passes_of_mem_afterTypeName (h : rest ∈ afterTypeName text) : Passes text rest := by
  unfold afterTypeName at h
  split at h
  · simp at h
  · next word after hword =>
      refine (passes_of_readWord? hword).trans ?_
      split at h
      · next generic hgeneric =>
          obtain ⟨free, rfl, hfree⟩ := exists_of_mem_afterGeneric h
          have hopen := passes_skipSpaces after
          rw [hgeneric] at hopen
          exact hopen.trans ⟨'<' :: free, rfl, noCommentLine_cons (by decide) (by decide) hfree⟩
      · obtain rfl := by simpa using h
        exact .refl rest

theorem passes_skipBrackets (text : List Char) : Passes text (skipBrackets text) := by
  induction hlength : text.length using Nat.strongRecOn generalizing text with
  | ind length ih =>
      subst hlength
      rw [skipBrackets.eq_def]
      split
      · next inside =>
          split
          · next after hcommas =>
              have hclosed : Passes inside (']' :: after) :=
                hcommas ▸ passes_dropWhile (by decide) inside
              have hshorter : after.length < ('[' :: inside).length := by
                have := (List.dropWhile_suffix (l := inside) (· == ',')).length_le
                rw [hcommas] at this
                simp only [List.length_cons] at this ⊢
                omega
              exact (passes_cons (by decide) inside).trans (hclosed.trans
                ((passes_cons (by decide) after).trans (ih after.length hshorter after rfl)))
          · exact .refl _
      · exact .refl _

theorem passes_of_readTypeEnd? {after : List Char} (h : readTypeEnd? text = some (after, rest)) :
    Passes text rest := by
  unfold readTypeEnd? at h
  dsimp only at h
  refine (passes_skipSpaces text).trans ?_
  split at h
  · split at h
    · obtain ⟨_, rfl⟩ := by simpa using h
      exact .refl _
    · simp at h
  · obtain ⟨last, hlast, heq⟩ := Option.map_eq_some_iff.mp h
    obtain ⟨rfl, rfl⟩ := by simpa using heq
    have hmark : Passes (skipSpaces text) ((readText? "?" (skipSpaces text)).getD (skipSpaces text)) :=
      passes_getD fun _ hmark => passes_of_readText? (by decide) hmark
    exact hmark.trans ((passes_skipBrackets _).trans (passes_of_readSpaces? hlast))

theorem closes_of_readNameAndBody? {name : List Char}
    (h : readNameAndBody? text = some (name, rest)) : Closes text rest := by
  obtain ⟨⟨word, after⟩, hword, h⟩ := Option.bind_eq_some_iff.mp h
  obtain ⟨last, hbody, heq⟩ := Option.bind_eq_some_iff.mp h
  obtain ⟨rfl, rfl⟩ := by simpa using heq
  exact ((passes_of_readWord? hword).trans (passes_skipSpaces after)).closes
    (closes_of_readBody? hbody)

theorem closes_of_readProperty? {property : PropertyText}
    (h : readProperty? text = some property) : Closes text property.rest := by
  obtain ⟨access, haccess, h⟩ := List.exists_of_findSome?_eq_some h
  obtain ⟨member, hmember, h⟩ := List.exists_of_findSome?_eq_some h
  obtain ⟨after, hmem, h⟩ := List.exists_of_findSome?_eq_some h
  obtain ⟨⟨suffix, front⟩, hend, h⟩ := Option.bind_eq_some_iff.mp h
  obtain ⟨⟨name, last⟩, hname, h⟩ := Option.bind_eq_some_iff.mp h
  obtain rfl := Option.some.inj h
  have hmodifiers := (passes_of_mem_afterKeywords haccess).trans (passes_of_mem_afterKeywords hmember)
  have htype := (passes_of_mem_afterTypeName hmem).trans (passes_of_readTypeEnd? hend)
  exact (hmodifiers.trans htype).closes (closes_of_readNameAndBody? hname)

theorem uncommented_of_readProperty? {property : PropertyText}
    (h : readProperty? text = some property) :
    ∃ taken, text = taken ++ property.rest ∧ Uncommented taken :=
  (closes_of_readProperty? h).uncommented

/-! ### Headers -/

/-- The free text of a header stays on the line of the name; the brace need not. -/
theorem exists_of_readHeaderTail? {tail : List Char}
    (h : readHeaderTail? text = some (tail, rest)) :
    ∃ after, text = tail ++ after ∧ Unbroken tail ∧ skipSpaces after = '\x7b' :: rest := by
  induction text generalizing tail with
  | nil => simp [readHeaderTail?] at h
  | cons c text ih =>
      rw [readHeaderTail?] at h
      split at h
      · next after hafter =>
          obtain ⟨rfl, rfl⟩ := by simpa using h
          exact ⟨c :: text, rfl, List.forall_mem_nil _, hafter⟩
      · split at h
        · simp at h
        · next hother =>
            obtain ⟨⟨tail', rest'⟩, htail, heq⟩ := Option.map_eq_some_iff.mp h
            obtain ⟨rfl, rfl⟩ := by simpa using heq
            obtain ⟨after, rfl, htail', hbrace⟩ := ih htail
            have hc : isLineBreak c = false := by
              rw [Bool.eq_false_iff]
              intro hbreak
              exact hother (by simp [hbreak])
            exact ⟨after, rfl, List.forall_mem_cons.mpr ⟨hc, htail'⟩, hbrace⟩

theorem closes_of_readKeyedHeader? {header : HeaderText}
    (h : readKeyedHeader? text = some header) : Closes text header.rest := by
  obtain ⟨⟨keyword, after⟩, hkeyword, h⟩ := Option.bind_eq_some_iff.mp h
  dsimp only at h
  split at h
  · simp at h
  · obtain ⟨front, hspaces, h⟩ := Option.bind_eq_some_iff.mp h
    obtain ⟨⟨name, behind⟩, hname, h⟩ := Option.bind_eq_some_iff.mp h
    obtain ⟨⟨tail, last⟩, htail, h⟩ := Option.bind_eq_some_iff.mp h
    obtain rfl := Option.some.inj h
    obtain ⟨gap, rfl, htail', hbrace⟩ := exists_of_readHeaderTail? htail
    have hword := isWord_of_readWord? hname
    have hfront : Passes front gap := by
      obtain ⟨c, more, rfl, hc, hspace⟩ := hword.exists_cons
      have hmore : '\n' ∉ c :: more := not_mem_of_isWord hword (by decide)
      refine ⟨c :: (more ++ tail), ?_, noCommentLine_cons hspace ?_ ?_⟩
      · simpa using eq_append_of_readWord? hname
      · rintro rfl
        exact absurd hc (by decide)
      · exact List.not_mem_append (List.not_mem_of_not_mem_cons hmore) htail'.not_mem_feed
    have hgap := passes_skipSpaces gap
    rw [hbrace] at hgap
    have hkeyword' := (passes_of_readWord? hkeyword).trans (passes_of_readSpaces? hspaces)
    exact (hkeyword'.trans (hfront.trans hgap)).closes (closes_cons (by decide) (by decide) _)

theorem closes_of_readHeader? {header : HeaderText} (h : readHeader? text = some header) :
    Closes text header.rest := by
  obtain ⟨after, hpublic, h⟩ := Option.bind_eq_some_iff.mp h
  obtain ⟨keyed, hmem, h⟩ := List.exists_of_findSome?_eq_some h
  have hmodifiers := (passes_of_readKeyword? hpublic).trans (passes_of_mem_afterKeywords hmem)
  exact hmodifiers.closes (closes_of_readKeyedHeader? h)

theorem uncommented_of_readHeader? {header : HeaderText} (h : readHeader? text = some header) :
    ∃ taken, text = taken ++ header.rest ∧ Uncommented taken :=
  (closes_of_readHeader? h).uncommented

/-! ### Attribute lines -/

theorem beginsApart_of_isBracketed {content : List Char} (h : isBracketed content = true) :
    BeginsApart content := by
  obtain ⟨lead, inside, trail, rfl, hlead, _⟩ := isBracketed_iff.mp h
  have hskip : skipSpaces (lead ++ '[' :: (inside ++ ']' :: trail)) =
      '[' :: (inside ++ ']' :: trail) :=
    dropWhile_append_of_boundary (fun c hc => isSpace_of_isBlank (hlead c hc)) rfl
  exact ⟨'[', by rw [hskip]; rfl, by decide⟩

theorem uncommented_of_isAttributeLine {line : List Char} (h : IsAttributeLine line) :
    Uncommented line := by
  obtain ⟨content, ending, hending, rfl, hcontent, hbracketed⟩ := isAttributeLine_iff.mp h
  have hbegins := beginsApart_of_isBracketed hbracketed
  have hfeed : '\n' ∉ content := fun hmem => absurd (hcontent '\n' hmem) (by decide)
  simp only [List.mem_cons, List.not_mem_nil, or_false] at hending
  rcases hending with rfl | rfl | rfl
  · rw [List.append_nil]
    exact uncommented_of_not_mem hbegins hfeed
  · exact uncommented_append_feed hbegins hfeed
  · have hreturn : '\n' ∉ content ++ ['\r'] := by simpa using hfeed
    have hline := uncommented_append_feed (hbegins.append ['\r']) hreturn
    rwa [List.append_assoc] at hline

theorem uncommented_of_readAttributeLine? {text rest : List Char}
    (h : readAttributeLine? text = some rest) :
    ∃ taken, text = taken ++ rest ∧ Uncommented taken := by
  obtain ⟨line, htext, hattribute, _⟩ := exists_of_readAttributeLine? h
  exact ⟨line, htext, uncommented_of_isAttributeLine hattribute⟩

end TypeScribe.Scan
