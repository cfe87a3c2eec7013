import TypeScribe.Proofs.Settings.Validation
import TypeScribe.Proofs.Toml.Document

/-!
# The label on an element

A file that sets nothing but the postfixes, on one line below lines of comments. A fault in the list is
looked for among the quoted occurrences of its text in the whole file: the elements are such
occurrences, but a comment may quote the text too, and the comma and the blank between two elements
stand between quotes as well.
-/

namespace TypeScribe.Settings

open Text

/-- Comments on lines of their own, and the postfixes listed on the line below. -/
structure PostfixFile where
  comments : List String
  elements : List String
  plain_comments : ∀ comment ∈ comments, comment.toList.all Toml.isPlain
  plain_elements : ∀ element ∈ elements,
    element.toList.all fun c => Toml.isPlain c && c ∉ ['"', '\'', '\\']

namespace PostfixFile

def commentLines (file : PostfixFile) : List Char :=
  file.comments.flatMap fun comment => '#' :: ' ' :: comment.toList ++ ['\n']

/-- The file through the bracket that opens the list. -/
def lead (file : PostfixFile) : List Char := file.commentLines ++ "trimPostfixes = [".toList

/-- The elements between double quotes, with a comma and a blank between each two. -/
def list (file : PostfixFile) : List Char := [',', ' '].intercalate (file.elements.map (quoted '"'))

def chars (file : PostfixFile) : List Char := file.lead ++ (file.list ++ [']', '\n'])

def source (file : PostfixFile) (name : String) : Source := ⟨String.ofList file.chars, name⟩

/-- The file up to the quote that opens the element at `index`. -/
def front (file : PostfixFile) (index : Nat) : List Char :=
  file.lead ++ (file.elements.take index).flatMap fun element => quoted '"' element ++ [',', ' ']

/-- The bytes of the element `fix` at `index`, quotes included. -/
def elementSpan (file : PostfixFile) (index : Nat) (fix : String) : Span :=
  ⟨byteLength (file.front index), byteLength (quoted '"' fix)⟩

end PostfixFile

section File

variable {file : PostfixFile} {index : Nat} {fix : String}

theorem PostfixFile.plain_of_mem (h : fix ∈ file.elements) :
    ∀ c ∈ fix.toList, Toml.isPlain c = true ∧ c ∉ ['"', '\'', '\\'] := by
  intro c hc
  have hplain := List.all_eq_true.mp (file.plain_elements fix h) c hc
  rwa [Bool.and_eq_true, decide_eq_true_eq] at hplain

theorem PostfixFile.exists_chars_eq (h : file.elements[index]? = some fix) :
    ∃ after, file.chars = file.front index ++ (quoted '"' fix ++ after) := by
  obtain ⟨hlt, rfl⟩ := List.getElem?_eq_some_iff.mp h
  obtain ⟨after, hafter⟩ := exists_intercalate_append [',', ' '] (quoted '"' file.elements[index])
    ((file.elements.take index).map (quoted '"')) ((file.elements.drop (index + 1)).map (quoted '"'))
  have hlist : file.list = (file.elements.take index).flatMap
      (fun element => quoted '"' element ++ [',', ' ']) ++
        (quoted '"' file.elements[index] ++ after) := by
    rw [List.flatMap_map] at hafter
    rw [PostfixFile.list, ← hafter, ← List.map_cons, ← List.map_append, List.getElem_cons_drop,
      List.take_append_drop]
  exact ⟨after ++ [']', '\n'], by simp [PostfixFile.chars, PostfixFile.front, hlist]⟩

/-! ### Reading it -/

theorem mapM_text? (texts : List String) :
    (texts.map Toml.Value.text).mapM Toml.text? = some texts := by
  induction texts with
  | nil => rfl
  | cons text texts ih =>
      rw [List.map_cons, List.mapM_cons, ih]
      rfl

theorem ofTable?_trimPostfixes (texts : List String) :
    Config.ofTable? [("trimPostfixes", .array (texts.map Toml.Value.text))] =
      some ⟨false, texts, false⟩ := by
  have htexts : Toml.texts? [("trimPostfixes", .array (texts.map Toml.Value.text))]
      "trimPostfixes" = some texts := mapM_text? texts
  rw [Config.ofTable?, htexts]
  rfl

theorem PostfixFile.chars_eq_textsDocument (file : PostfixFile) :
    file.chars = Toml.textsDocument (file.comments.map fun comment => ' ' :: comment.toList)
      "trimPostfixes".toList (file.elements.map String.toList) := by
  have hkey : "trimPostfixes = [".toList = "trimPostfixes".toList ++ [' ', '=', ' ', '['] := rfl
  have hquoted : quoted '"' = fun element => '"' :: element.toList ++ ['"'] := rfl
  simp [chars, lead, commentLines, list, Toml.textsDocument, Toml.textChars, List.flatMap_map, hkey,
    hquoted, Function.comp_def]

theorem PostfixFile.read_chars (file : PostfixFile) :
    (Toml.parse? (String.ofList file.chars)).bind Config.ofTable? =
      some ⟨false, file.elements, false⟩ := by
  have hmark : file.chars.head? ≠ some '\ufeff' := by
    rw [chars, lead, commentLines]
    intro hhead
    cases hcomments : file.comments with
    | nil =>
        rw [hcomments] at hhead
        exact absurd (Option.some.inj hhead : 't' = _) (by decide)
    | cons comment comments =>
        rw [hcomments] at hhead
        exact absurd (Option.some.inj hhead : '#' = _) (by decide)
  have hcomments : ∀ comment ∈ file.comments.map fun comment => ' ' :: comment.toList,
      ∀ c ∈ comment, Toml.isPlain c = true := by
    rw [List.forall_mem_map]
    intro comment hcomment
    exact List.forall_mem_cons.mpr
      ⟨by decide, List.all_eq_true.mp (file.plain_comments comment hcomment)⟩
  have helements : ∀ text ∈ file.elements.map String.toList,
      ∀ c ∈ text, Toml.isUnescaped c = true := by
    rw [List.forall_mem_map]
    intro element helement c hc
    obtain ⟨hplain, hmarks⟩ := plain_of_mem helement c hc
    have hquote : c ≠ '"' := by
      rintro rfl
      exact hmarks (by simp)
    have hslash : c ≠ '\\' := by
      rintro rfl
      exact hmarks (by simp)
    simp [Toml.isUnescaped, hplain, hquote, hslash]
  have hkey : ∀ c ∈ "trimPostfixes".toList, Toml.isBareKeyChar c = true :=
    List.forall_iff_forall_mem.mp (by decide)
  obtain ⟨length, hlength⟩ : ∃ length, file.chars.length = length + 1 := by
    refine Nat.exists_eq_succ_of_ne_zero ?_
    simp [chars, lead]
  rw [parse?_eq_readStatements? String.toList_ofList hmark, hlength, chars_eq_textsDocument,
    Toml.readStatements?_textsDocument hcomments (by decide) hkey helements]
  simp [ofTable?_trimPostfixes, Function.comp_def]

/-! ### What the list holds -/

section Elements

variable {element : String} {rest : List Char} {offset : Nat}

theorem quoted_prefix_iff {quote : Char} (hfix : quote ∉ fix.toList)
    (helement : quote ∉ element.toList) :
    quoted quote fix <+: quoted quote element ++ rest ↔ fix = element := by
  constructor
  · rintro ⟨after, hafter⟩
    have hinside : fix.toList ++ quote :: after = element.toList ++ quote :: rest := by
      simpa [quoted] using hafter
    exact String.toList_inj.mp (eq_of_first hinside hfix helement).1
  · rintro rfl
    exact List.prefix_append _ _

/-- A postfix that is the comma and the blank between two elements is excluded here. -/
theorem occurrences_element (hfix : '"' ∉ fix.toList) (helement : '"' ∉ element.toList)
    (hseparator : fix = ", " → fix = element) :
    occurrences (quoted '"' fix) 0 offset (quoted '"' element ++ ([',', ' '] ++ '"' :: rest)) =
      (if fix = element then [offset] else []) ++ occurrences (quoted '"' fix) 0
        (offset + byteLength (quoted '"' element ++ [',', ' '])) ('"' :: rest) := by
  have hgap : ∀ offset, occurrences (quoted '"' fix) 0 offset ([',', ' '] ++ '"' :: rest) =
      occurrences (quoted '"' fix) 0 (offset + byteLength [',', ' ']) ('"' :: rest) :=
    fun offset => occurrences_quoted_append (by decide) offset _
  rw [byteLength_append, ← Nat.add_assoc]
  by_cases heq : fix = element
  · subst heq
    rw [if_pos rfl, occurrences_append_self (quoted_ne_nil _ _), hgap, List.singleton_append]
  · have hopen : ¬quoted '"' fix <+: quoted '"' element ++ ([',', ' '] ++ '"' :: rest) :=
      (quoted_prefix_iff hfix helement).not.mpr heq
    -- From its closing quote on, an element reads like the element `, `.
    have hclose : ¬quoted '"' fix <+: '"' :: ([',', ' '] ++ '"' :: rest) :=
      fun hstart => heq (hseparator ((@quoted_prefix_iff fix ", " rest '"' hfix (by decide)).mp hstart))
    have hquoted : quoted '"' element ++ ([',', ' '] ++ '"' :: rest) =
        '"' :: (element.toList ++ '"' :: ([',', ' '] ++ '"' :: rest)) := by simp [quoted]
    rw [hquoted] at hopen ⊢
    rw [if_neg heq, List.nil_append, occurrences_cons hopen, occurrences_quoted_append helement,
      occurrences_cons hclose, hgap]
    simp [quoted, Nat.add_assoc]

theorem exists_occurrences_elements {elements : List String} (hfix : '"' ∉ fix.toList)
    (helements : ∀ element ∈ elements, '"' ∉ element.toList)
    (hseparator : fix = ", " → ∀ element ∈ elements, fix = element) :
    ∃ earlier, earlier.length = elements.count fix ∧
      occurrences (quoted '"' fix) 0 offset
        ((elements.flatMap fun element => quoted '"' element ++ [',', ' ']) ++ '"' :: rest) =
      earlier ++ occurrences (quoted '"' fix) 0
        (offset + byteLength (elements.flatMap fun element => quoted '"' element ++ [',', ' ']))
        ('"' :: rest) := by
  induction elements generalizing offset with
  | nil => exact ⟨[], rfl, rfl⟩
  | cons element elements ih =>
      obtain ⟨helement, hlater⟩ := List.forall_mem_cons.mp helements
      obtain ⟨earlier, hlength, hearlier⟩ := @ih
        (offset + byteLength (quoted '"' element ++ [',', ' '])) hlater
        fun heq => (List.forall_mem_cons.mp (hseparator heq)).2
      obtain ⟨more, hmore⟩ : ∃ more,
          (elements.flatMap fun element => quoted '"' element ++ [',', ' ']) ++ '"' :: rest =
            '"' :: more := by
        cases elements with
        | nil => exact ⟨rest, rfl⟩
        | cons second elements => exact ⟨_, rfl⟩
      refine ⟨(if fix = element then [offset] else []) ++ earlier, ?_, ?_⟩
      · rw [List.length_append, hlength, List.count_cons, Nat.add_comm]
        by_cases heq : fix = element
        · simp [heq]
        · simp [heq, Ne.symm heq]
      · rw [hmore] at hearlier
        rw [List.flatMap_cons, List.append_assoc, List.append_assoc, hmore,
          occurrences_element hfix helement fun heq => hseparator heq element List.mem_cons_self,
          hearlier, byteLength_append (quoted '"' element ++ [',', ' ']), ← Nat.add_assoc,
          List.append_assoc]

end Elements

/-! ### What the comments hold -/

section Comments

variable {needle rest : List Char} {offset : Nat}

theorem occurrences_commentLines (hne : needle ≠ []) (hbreak : '\n' ∉ needle) :
    occurrences needle 0 offset (file.commentLines ++ rest) =
      occurrences needle 0 offset file.commentLines ++
        occurrences needle 0 (offset + byteLength file.commentLines) rest := by
  rw [PostfixFile.commentLines]
  induction file.comments generalizing offset with
  | nil => rfl
  | cons comment comments ih =>
      rw [List.flatMap_cons, List.append_assoc, List.append_assoc, List.append_assoc,
        List.singleton_append, List.singleton_append, occurrences_append_cons hne hbreak, ih,
        occurrences_append_cons hne hbreak, List.append_assoc]
      simp [Nat.add_assoc]

theorem occurrences_lead {quote : Char} (hquote : quote ∈ ['"', '\''])
    (hbreak : '\n' ∉ quoted quote fix) (rest : List Char) :
    occurrences (quoted quote fix) 0 0 (file.lead ++ rest) =
      occurrences (quoted quote fix) 0 0 file.commentLines ++
        occurrences (quoted quote fix) 0 (byteLength file.lead) rest := by
  have hkey : ∀ quote ∈ ['"', '\''], quote ∉ "trimPostfixes = [".toList :=
    List.forall_iff_forall_mem.mp (by decide)
  rw [PostfixFile.lead, List.append_assoc, occurrences_commentLines (quoted_ne_nil _ _) hbreak,
    occurrences_quoted_append (hkey quote hquote), byteLength_append, Nat.zero_add]

theorem occurrences_commentLines_eq_nil_iff {quote : Char} (hquote : quote ∉ ['#', ' '])
    (hbreak : '\n' ∉ quoted quote fix) :
    occurrences (quoted quote fix) 0 offset file.commentLines = [] ↔
      ∀ comment ∈ file.comments, ¬quoted quote fix <:+: comment.toList := by
  rw [PostfixFile.commentLines]
  induction file.comments generalizing offset with
  | nil => simp [occurrences]
  | cons comment comments ih =>
      have hline : '#' :: ' ' :: comment.toList = ['#', ' '] ++ comment.toList := rfl
      rw [List.flatMap_cons, List.append_assoc, List.singleton_append,
        occurrences_append_cons (quoted_ne_nil _ _) hbreak, hline,
        occurrences_quoted_append hquote, List.append_eq_nil_iff,
        occurrences_eq_nil_iff (quoted_ne_nil _ _), ih, List.forall_mem_cons]

end Comments

/-! ### The label -/

theorem PostfixFile.forall_mem_elements (file : PostfixFile) {quote : Char}
    (hquote : quote ∈ ['"', '\'']) : ∀ element ∈ file.elements, quote ∉ element.toList := by
  intro element helement hmem
  have hmarks := (plain_of_mem helement quote hmem).2
  simp only [List.mem_cons, List.not_mem_nil, or_false] at hquote hmarks
  exact hmarks (hquote.elim .inl fun h => .inr (.inl h))

theorem PostfixFile.break_not_mem_quoted (h : fix ∈ file.elements) {quote : Char}
    (hquote : quote ∈ ['"', '\'']) : '\n' ∉ quoted quote fix := by
  have hfix : '\n' ∉ fix.toList := fun hmem =>
    (Toml.ne_of_isPlain (plain_of_mem h _ hmem).1).1 rfl
  have hne : '\n' ≠ quote := by
    rintro rfl
    exact absurd hquote (by decide)
  simp [quoted, hfix, hne]

/-- Before the element at `index` there are the occurrences in comments and those among the elements
before it. -/
theorem PostfixFile.exists_quotedOffsets_eq (h : FirstOffence file.elements index fix)
    (hseparator : fix = ", " → index = 1) :
    ∃ earlier later, earlier.length = occurrencesPassed fix ∧
      quotedOffsets (String.ofList file.chars) fix '"' =
        occurrences (quoted '"' fix) 0 0 file.commentLines ++
          (earlier ++ byteLength (file.front index) :: later) := by
  have hquotes : ∀ element ∈ file.elements, '"' ∉ element.toList :=
    file.forall_mem_elements (by decide)
  have hbefore : fix = ", " → ∀ element ∈ file.elements.take index, fix = element := by
    intro hfix
    obtain hempty | hmem := (firstOffence_iff.mp h).2.1
    · exact absurd (hempty.symm.trans hfix) (by decide)
    · -- Only one element stands before, and it is the one that is repeated.
      rw [hseparator hfix] at hmem ⊢
      cases helements : file.elements with
      | nil => simp
      | cons first elements =>
          rw [helements] at hmem
          simpa using hmem
  obtain ⟨after, hchars⟩ := exists_chars_eq h.getElem?_eq
  obtain ⟨earlier, hlength, hearlier⟩ := @exists_occurrences_elements fix
    (fix.toList ++ ['"'] ++ after) (byteLength file.lead) (file.elements.take index)
    (hquotes fix h.mem)
    (fun element helement => hquotes element (List.mem_of_mem_take helement)) hbefore
  have hlater := occurrences_append_self (quoted_ne_nil '"' fix) (byteLength (file.front index)) after
  refine ⟨earlier, occurrences (quoted '"' fix) 0
    (byteLength (file.front index) + byteLength (quoted '"' fix)) after,
    hlength.trans h.count_take, ?_⟩
  rw [← hlater, front, byteLength_append, quotedOffsets, String.toList_ofList, hchars, front,
    List.append_assoc, occurrences_lead (by decide) (break_not_mem_quoted h.mem (by decide))]
  exact congrArg _ hearlier

theorem PostfixFile.quotedOffsets_eq (h : fix ∈ file.elements) :
    quotedOffsets (String.ofList file.chars) fix '\'' =
      occurrences (quoted '\'' fix) 0 0 file.commentLines := by
  have hquotes : ∀ element ∈ file.elements, '\'' ∉ element.toList :=
    file.forall_mem_elements (by decide)
  have hlist : '\'' ∉ file.list ++ [']', '\n'] := by
    have helements : ∀ text ∈ file.elements.map (quoted '"'), ∀ c ∈ text, c ≠ '\'' := by
      rw [List.forall_mem_map]
      rintro element helement _ hmem rfl
      exact hquotes element helement (by simpa [quoted] using hmem)
    rw [List.mem_append, not_or]
    have hgap : ∀ c ∈ [',', ' '], c ≠ '\'' := List.forall_iff_forall_mem.mp (by decide)
    exact ⟨fun hmem => forall_mem_intercalate hgap helements _ hmem rfl, by decide⟩
  have hrest := @occurrences_quoted_append fix '\'' (file.list ++ [']', '\n']) hlist
    (byteLength file.lead) []
  rw [List.append_nil] at hrest
  rw [quotedOffsets, String.toList_ofList, chars,
    occurrences_lead (by decide) (break_not_mem_quoted h (by decide)), hrest]
  exact List.append_nil _

theorem PostfixFile.byteLength_commentLines_le (file : PostfixFile) (index : Nat) :
    byteLength file.commentLines ≤ byteLength (file.front index) := by
  rw [front, lead, byteLength_append, byteLength_append]
  omega

theorem PostfixFile.mem_and_countP_double (h : FirstOffence file.elements index fix)
    (hseparator : fix = ", " → index = 1) :
    byteLength (file.front index) ∈ quotedOffsets (String.ofList file.chars) fix '"' ∧
      (quotedOffsets (String.ofList file.chars) fix '"').countP
          (· < byteLength (file.front index)) =
        (occurrences (quoted '"' fix) 0 0 file.commentLines).length + occurrencesPassed fix := by
  obtain ⟨earlier, later, hlength, hdouble⟩ := exists_quotedOffsets_eq h hseparator
  rw [← getElem?_eq_some_iff_of_increasing (increasing_quotedOffsets _ _ _), ← hlength, hdouble,
    ← List.append_assoc, ← List.length_append, List.getElem?_append_right le_rfl, Nat.sub_self,
    List.getElem?_cons_zero]

theorem PostfixFile.countP_single (h : fix ∈ file.elements) (index : Nat) :
    (quotedOffsets (String.ofList file.chars) fix '\'').countP
        (· < byteLength (file.front index)) =
      (occurrences (quoted '\'' fix) 0 0 file.commentLines).length := by
  rw [quotedOffsets_eq h, List.countP_eq_length]
  intro offset hoffset
  have hlt := (foundFromLeft_occurrences (quoted_ne_nil _ _) _).lt_byteLength
    (quoted_ne_nil _ _) hoffset
  exact decide_eq_true (hlt.trans_le (file.byteLength_commentLines_le index))

theorem PostfixFile.length_occurrences_eq_zero_iff (h : fix ∈ file.elements) {quote : Char}
    (hquote : quote ∈ ['"', '\'']) :
    (occurrences (quoted quote fix) 0 0 file.commentLines).length = 0 ↔
      ∀ comment ∈ file.comments, ¬quoted quote fix <:+: comment.toList := by
  have hmark : ∀ quote ∈ ['"', '\''], quote ∉ ['#', ' '] :=
    List.forall_iff_forall_mem.mp (by decide)
  rw [List.length_eq_zero_iff, occurrences_commentLines_eq_nil_iff (hmark quote hquote)
    (break_not_mem_quoted h hquote)]

theorem PostfixFile.label_iff (h : FirstOffence file.elements index fix)
    (hseparator : fix = ", " → index = 1) :
    (quotedSpans (String.ofList file.chars) fix)[occurrencesPassed fix]? =
        some (file.elementSpan index fix) ↔
      ∀ quote ∈ ['"', '\''], ∀ comment ∈ file.comments, ¬quoted quote fix <:+: comment.toList := by
  obtain ⟨hmem, hcount⟩ := mem_and_countP_double h hseparator
  rw [getElem?_quotedSpans_eq_some_iff, elementSpan, hcount, countP_single h.mem,
    List.forall_mem_cons, List.forall_mem_singleton,
    ← length_occurrences_eq_zero_iff h.mem (by decide),
    ← length_occurrences_eq_zero_iff h.mem (by decide)]
  constructor
  · rintro ⟨-, -, hsum⟩
    omega
  · rintro ⟨hdouble, hsingle⟩
    exact ⟨byteLength_quoted rfl fix, .inl hmem, by omega⟩

/-- The gaps behind the first two elements stand between quotes as well. -/
theorem PostfixFile.exists_gaps {first second : String} {elements : List String}
    (h : file.elements[index]? = some fix)
    (htake : file.elements.take index = first :: second :: elements) :
    ∃ gap gap', Span.Holds ⟨gap, byteLength (quoted '"' ", ")⟩ file.chars (quoted '"' ", ") ∧
      Span.Holds ⟨gap', byteLength (quoted '"' ", ")⟩ file.chars (quoted '"' ", ") ∧
      gap + byteLength (quoted '"' ", ") ≤ gap' ∧ gap' < byteLength (file.front index) := by
  obtain ⟨after, hchars⟩ := exists_chars_eq h
  obtain ⟨more, hmore⟩ : ∃ more,
      (elements.flatMap fun element => quoted '"' element ++ [',', ' ']) ++
        (quoted '"' fix ++ after) = '"' :: more := by
    cases elements with
    | nil => exact ⟨_, rfl⟩
    | cons third elements => exact ⟨_, rfl⟩
  have hwhole : file.chars = (file.lead ++ '"' :: first.toList) ++ (quoted '"' ", " ++
      (second.toList ++ (quoted '"' ", " ++ more))) := by
    have hgap : quoted '"' ", " ++ more = '"' :: ',' :: ' ' :: '"' :: more := rfl
    rw [hchars, front, htake, hgap, ← hmore]
    simp [quoted]
  have hwhole' : file.chars = (file.lead ++ '"' :: first.toList ++ (quoted '"' ", " ++
      second.toList)) ++ (quoted '"' ", " ++ more) := by
    rw [hwhole, List.append_assoc, List.append_assoc, List.append_assoc, List.append_assoc]
  refine ⟨_, _, ⟨_, _, hwhole, rfl⟩, ⟨_, _, hwhole', rfl⟩, ?_, ?_⟩
  · rw [byteLength_append _ (quoted '"' ", " ++ second.toList), byteLength_append (quoted _ _)]
    omega
  · have hsizes : '"'.utf8Size = 1 ∧ byteLength [',', ' '] = 2 := by decide
    have hseparator : ", ".toList = [',', ' '] := rfl
    rw [front, htake, List.flatMap_cons, List.flatMap_cons]
    simp only [byteLength_append, @byteLength_quoted '"' rfl, hseparator, hsizes,
      @byteLength_cons '"']
    omega

/-- An occurrence across each of the first two gaps has to be found before a later element. -/
theorem PostfixFile.label_ne_of_separator (h : FirstOffence file.elements index ", ")
    (hindex : index ≠ 1) :
    (quotedSpans (String.ofList file.chars) ", ")[occurrencesPassed ", "]? ≠
      some (file.elementSpan index ", ") := by
  intro hlabel
  obtain ⟨first, second, elements, htake⟩ := h.exists_take_eq_cons_cons (by decide) hindex
  obtain ⟨gap, gap', hgap, hgap', hapart, hlimit⟩ := exists_gaps h.getElem?_eq htake
  have hfound := foundFromLeft_quotedOffsets (String.ofList file.chars) ", " '"'
  rw [String.toList_ofList] at hfound
  have htwo := hfound.two_le_countP hgap hgap' hapart hlimit
  have hone : (quotedOffsets (String.ofList file.chars) ", " '"').countP
      (· < byteLength (file.front index)) +
        (quotedOffsets (String.ofList file.chars) ", " '\'').countP
          (· < byteLength (file.front index)) = 1 :=
    (getElem?_quotedSpans_eq_some_iff.mp hlabel).2.2
  omega

/-- **The label is on the element at fault just if nothing before it looks the same**: no comment quotes
its text, and if its text is the comma and the blank between two elements, there is only one such gap
before it. -/
theorem parse_label_eq_elementSpan_iff (h : FirstOffence file.elements index fix) (name : String) :
    ∃ span?, Config.parse (file.source name) = .error (.invalid (file.source name)
        (if fix = "" then "trim postfixes cannot be empty strings"
          else "duplicate trim postfix '" ++ fix ++ "'") span?) ∧
      (span? = some (file.elementSpan index fix) ↔
        (∀ quote ∈ ['"', '\''], ∀ comment ∈ file.comments,
          ¬quoted quote fix <:+: comment.toList) ∧ (fix = ", " → index = 1)) := by
  have hread : (Toml.parse? (file.source name).content).bind Config.ofTable? =
      some ⟨false, file.elements, false⟩ := file.read_chars
  refine ⟨(quotedSpans (String.ofList file.chars) fix)[occurrencesPassed fix]?, ?_, ?_⟩
  · rw [Config.parse_eq_validate hread, validate_of_firstOffence h, message_ofPostfix,
      PostfixFile.source]
  · by_cases hseparator : fix = ", " → index = 1
    · rw [and_iff_left hseparator]
      exact PostfixFile.label_iff h hseparator
    · obtain ⟨rfl, hindex⟩ := Classical.not_imp.mp hseparator
      rw [iff_false_right fun hboth => hseparator hboth.2]
      exact PostfixFile.label_ne_of_separator h hindex

/-- The comment names the repeated postfix without quotes around it. -/
theorem parse_label_eq_elementSpan_iff_unquoted :
    let file : PostfixFile := ⟨["Dto's"], ["é", "Dto", ", ", "Dto"], by decide, by decide⟩
    FirstOffence file.elements 3 "Dto" ∧
      Config.parse (file.source "cs2ts.toml") = .error (.invalid (file.source "cs2ts.toml")
        "duplicate trim postfix 'Dto'" (some ⟨44, 5⟩)) := by
  intro file
  have hfirst : FirstOffence file.elements 3 "Dto" := firstOffence_iff.mpr (by decide)
  obtain ⟨span?, hparse, hlabel⟩ := parse_label_eq_elementSpan_iff hfirst "cs2ts.toml"
  have hspan : file.elementSpan 3 "Dto" = ⟨44, 5⟩ := by decide +kernel
  have hfree : ∀ quote ∈ ['"', '\''], ∀ comment ∈ file.comments,
      ¬quoted quote "Dto" <:+: comment.toList := List.forall_iff_forall_mem.mp (by decide)
  rw [hlabel.mpr ⟨hfree, by decide⟩, hspan] at hparse
  exact ⟨hfirst, hparse⟩

/-- The comment holds the first quoted occurrence of the repeated postfix, its element the second. -/
theorem exists_label_on_first_element :
    ¬∀ (file : PostfixFile) (index : Nat) (fix name : String), FirstOffence file.elements index fix →
      ∃ message, Config.parse (file.source name) = .error (.invalid (file.source name) message
        (some (file.elementSpan index fix))) := by
  intro hlabel
  let file : PostfixFile := ⟨["\"a\""], ["a", "a"], by decide, by decide⟩
  have hfirst : FirstOffence file.elements 1 "a" := firstOffence_iff.mpr (by decide)
  obtain ⟨message, hparse⟩ := hlabel file 1 "a" "cs2ts.toml" hfirst
  have hread : (Toml.parse? (file.source "cs2ts.toml").content).bind Config.ofTable? =
      some ⟨false, file.elements, false⟩ := file.read_chars
  rw [Config.parse_eq_validate hread, validate_of_firstOffence hfirst] at hparse
  obtain ⟨-, -, hspan⟩ := Settings.Error.invalid.inj (Except.error.inj hparse)
  exact (PostfixFile.label_iff hfirst (by decide)).mp hspan '"' (by decide) "\"a\"" (by decide)
    (by decide)

end File

end TypeScribe.Settings
