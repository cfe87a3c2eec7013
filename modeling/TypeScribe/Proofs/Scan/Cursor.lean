import TypeScribe.Proofs.Scan.Declared
import TypeScribe.Proofs.Scan.Steadiness

/-!
# What the patterns find at the cursor

The character at the cursor excludes most patterns: a property and a header begin with a word, a
summary with a slash, and an attribute line with a bracket behind nothing but blanks. Where a
construct does stand at the cursor, the pattern takes it as a whole.
-/

namespace TypeScribe.Scan

open Text

variable {config : Config} {window : Window}

theorem propertyPattern_eq_none (h : window.ahead.head?.any isAsciiWord = false) :
    propertyPattern config window = none := by
  have hword := readWord?_eq_none h
  have htyped : readTypedProperty? window.ahead = none := by
    rw [readTypedProperty?, afterTypeName, hword]
    rfl
  have hproperty : findProperty window = none := by
    rw [findProperty, readProperty?,
      findSome?_afterKeywords_of_none (readKeyword?_of_readWord?_eq_none hword),
      findSome?_afterKeywords_of_none (readKeyword?_of_readWord?_eq_none hword), htyped]
  rw [propertyPattern, acceptedHit, hproperty, Option.bind_none]

theorem headerPattern_eq_none (h : window.ahead.head?.any isAsciiWord = false) :
    headerPattern config window = none := by
  have hheader : findHeader window = none := by
    rw [findHeader, readHeader?,
      readKeyword?_of_readWord?_eq_none (readWord?_eq_none h)]
    simp
  rw [headerPattern, acceptedHit, hheader, Option.bind_none]

theorem summaryPattern_eq_none (h : window.ahead.head? ≠ some '/') :
    summaryPattern window = none := by
  have hslashes : readText? "///" window.ahead = none := by
    rw [Option.eq_none_iff_forall_ne_some]
    intro rest hrest
    rw [eq_append_of_readText? hrest] at h
    exact h rfl
  rw [summaryPattern, readSummary?, readTag?, hslashes]
  rfl

/-! ### Attribute lines -/

theorem head?_skipBlanks_of_takeWhile {text : List Char}
    (h : (skipBlanks (text.takeWhile (!isLineBreak ·))).head? = some '[') :
    (skipBlanks text).head? = some '[' := by
  induction text with
  | nil => exact h
  | cons c text ih =>
      by_cases hbreak : isLineBreak c = true
      · rw [List.takeWhile_cons_of_neg (by simp [hbreak])] at h
        simp [skipBlanks] at h
      · rw [List.takeWhile_cons_of_pos (by simpa using hbreak)] at h
        by_cases hblank : isBlank c = true
        · rw [skipBlanks, List.dropWhile_cons_of_pos hblank] at h ⊢
          exact ih h
        · rw [skipBlanks, List.dropWhile_cons_of_neg hblank] at h ⊢
          exact h

theorem attributePattern_eq_none (h : (skipBlanks window.ahead).head? ≠ some '[') :
    attributePattern window = none := by
  have hbracketed : isBracketed (window.ahead.takeWhile (!isLineBreak ·)) = false := by
    unfold isBracketed
    split
    · next rest hrest => exact absurd (head?_skipBlanks_of_takeWhile (by rw [hrest]; rfl)) h
    · rfl
  have hline : readAttributeLine? window.ahead = none := by
    rw [readAttributeLine?]
    simp [hbracketed]
  rw [attributePattern, hline]
  simp

/-- A word is no bracket. -/
theorem head?_skipBlanks_ne {text : List Char} (h : text.head?.any isAsciiWord = true) :
    (skipBlanks text).head? ≠ some '[' := by
  rw [skipBlanks_eq_self (isSpace_head?_eq_false h)]
  intro hbracket
  rw [hbracket] at h
  exact absurd h (by decide)

theorem readAttributeLine?_append {blanks content : List Char}
    (hblanks : ∀ c ∈ blanks, isBlank c = true) (hcontent : ∀ c ∈ content, isLineBreak c = false)
    (rest : List Char) :
    readAttributeLine? (blanks ++ '[' :: (content ++ ']' :: '\n' :: rest)) = some rest := by
  have hbracketed : isBracketed (blanks ++ '[' :: (content ++ [']'])) = true :=
    isBracketed_iff.mpr ⟨blanks, content, [], rfl, hblanks, by simp⟩
  have hline : ∀ c ∈ blanks ++ '[' :: (content ++ [']']), isLineBreak c = false :=
    isLineBreak_eq_false_of_mem_bracketed hblanks hcontent (by simp)
  have htext : blanks ++ '[' :: (content ++ ']' :: '\n' :: rest) =
      (blanks ++ '[' :: (content ++ [']'])) ++ '\n' :: rest := by
    simp
  rw [htext, readAttributeLine?_of_boundary hbracketed hline rfl]
  rfl

/-- An attribute line is taken with its line break. -/
theorem attributePattern_append {blanks content : List Char}
    (hblanks : ∀ c ∈ blanks, isBlank c = true) (hcontent : ∀ c ∈ content, isLineBreak c = false)
    (behind rest : List Char) :
    attributePattern ⟨'\n' :: behind, blanks ++ '[' :: (content ++ ']' :: '\n' :: rest)⟩ =
      some ⟨(blanks ++ '[' :: (content ++ [']', '\n'])).length, []⟩ := by
  have hlength : (blanks ++ '[' :: (content ++ ']' :: '\n' :: rest)).length - rest.length =
      (blanks ++ '[' :: (content ++ [']', '\n'])).length := by
    simp only [List.length_append, List.length_cons, List.length_nil]
    omega
  rw [attributePattern, readAttributeLine?_append hblanks hcontent, Option.map_some, hlength]
  rfl

/-! ### Line comments -/

section Comment

variable {behind more rest : List Char}

theorem takeWhile_reverse_append (hfeed : '\n' ∉ more) (behind : List Char) :
    (more.reverse ++ behind).takeWhile (· != '\n') =
      more.reverse ++ behind.takeWhile (· != '\n') :=
  List.takeWhile_append_of_pos (forall_mem_reverse_ne hfeed)

/-- A comment goes on up to the end of its line. -/
theorem Window.inLineComment_append (hfeed : '\n' ∉ more)
    (h : Window.inLineComment ⟨behind, more ++ rest⟩ = true) :
    Window.inLineComment ⟨more.reverse ++ behind, rest⟩ = true := by
  rw [Window.inLineComment, hasPair_eq_true_iff] at h ⊢
  rw [takeWhile_reverse_append hfeed]
  exact h.trans (List.suffix_append _ _).isInfix

/-- Text that does not begin with a slash begins a comment only by a `//` of its own. -/
theorem Window.inLineComment_append_eq (hfeed : '\n' ∉ more) (hslash : more.head? ≠ some '/')
    (h : Window.inLineComment ⟨behind, more ++ rest⟩ = false) :
    Window.inLineComment ⟨more.reverse ++ behind, rest⟩ = hasPair '/' '/' more := by
  have hbehind : ¬['/', '/'] <:+: behind.takeWhile (· != '\n') := by
    rwa [← hasPair_eq_true_iff, Bool.not_eq_true]
  have hseam : more.reverse.getLast? ≠ some '/' := by
    rwa [List.getLast?_reverse]
  have hreverse : ['/', '/'].reverse <:+: more.reverse ↔ ['/', '/'] <:+: more :=
    List.reverse_infix
  rw [Window.inLineComment, takeWhile_reverse_append hfeed, Bool.eq_iff_iff, hasPair_eq_true_iff,
    hasPair_eq_true_iff, pair_infix_append_iff, ← hreverse]
  exact or_iff_left (not_or.mpr ⟨hbehind, fun hpair => hseam hpair.1⟩)

end Comment

/-! ### Properties -/

/-- A declared property outside of comments is taken as a whole. -/
theorem propertyPattern_append (property : PropertyDeclaration) {behind rest : List Char}
    (hcomment : Window.inLineComment ⟨behind, property.chars ++ rest⟩ = false)
    (hrest : property.body.EndsBefore rest) :
    propertyPattern config ⟨behind, property.chars ++ rest⟩ =
      some ⟨property.chars.length, propertyDeclaration config property.name property.type⟩ := by
  obtain ⟨trail, htrail, hread⟩ := property.exists_readProperty? hrest
  have hnames := property.type_names.imp fun _ => IsWord.isName
  have hlength : (property.chars ++ rest).length - rest.length = property.chars.length := by
    rw [List.length_append, Nat.add_sub_cancel]
  rw [propertyPattern, acceptedHit, findProperty, hread, Option.bind_some, judgeProperty, hcomment,
    hnames.parse_eq_ok htrail]
  simp only [Bool.false_eq_true, if_false, hlength]
  rfl

/-! ### Headers -/

theorem readTypedProperty?_eq_none_of_body {type name rest : List Char} (htype : IsWord type)
    (hname : IsWord name) (hrest : rest.head?.any isAsciiWord = false)
    (hbody : readBody? (skipSpaces rest) = none) :
    readTypedProperty? (type ++ ' ' :: (name ++ rest)) = none := by
  have hafter : afterTypeName (type ++ ' ' :: (name ++ rest)) = [' ' :: (name ++ rest)] := by
    rw [afterTypeName, readWord?_append htype rfl]
    dsimp only
    split
    · next generic hgeneric =>
        exact absurd hgeneric ((suffixChars_boundary hname 0 false rest).2 generic)
    · rfl
  rw [readTypedProperty?, hafter]
  simp [readTypeEnd?_space hname, readNameAndBody?, readWord?_append hname hrest, hbody]

/-- The characters that may stand before the semicolon of a getter. -/
def isLoose (c : Char) : Bool := isAsciiWord c || isSpace c

theorem isLoose_of_isAsciiWord {c : Char} (h : isAsciiWord c = true) : isLoose c = true := by
  rw [isLoose, h, Bool.true_or]

theorem isLoose_of_isSpace {c : Char} (h : isSpace c = true) : isLoose c = true := by
  rw [isLoose, h, Bool.or_true]

theorem isLoose_of_mem_takeWhile {text : List Char} {c : Char} (h : c ∈ text.takeWhile isSpace) :
    isLoose c = true :=
  isLoose_of_isSpace (List.mem_takeWhile_imp h)

theorem exists_of_readSpaces? {text rest : List Char} (h : readSpaces? text = some rest) :
    ∃ front, text = front ++ rest ∧ ∀ c ∈ front, isLoose c = true := by
  cases text with
  | nil => simp [readSpaces?] at h
  | cons c text =>
      rw [readSpaces?] at h
      split at h
      · next hspace =>
          obtain rfl := Option.some.inj h
          refine ⟨c :: text.takeWhile isSpace, ?_, fun d hd => ?_⟩
          · rw [List.cons_append, skipSpaces, List.takeWhile_append_dropWhile]
          · rcases List.mem_cons.mp hd with rfl | hd
            · exact isLoose_of_isSpace hspace
            · exact isLoose_of_mem_takeWhile hd
      · simp at h

theorem exists_of_readKeyword? {words : List String} {text rest : List Char}
    (h : readKeyword? words text = some rest) :
    ∃ front, text = front ++ rest ∧ ∀ c ∈ front, isLoose c = true := by
  obtain ⟨⟨word, after⟩, hword, hrest⟩ := Option.bind_eq_some_iff.mp h
  dsimp only at hrest
  split at hrest
  · obtain ⟨front, rfl, hfront⟩ := exists_of_readSpaces? hrest
    refine ⟨word ++ front, ?_, fun c hc => ?_⟩
    · rw [List.append_assoc, ← eq_append_of_readWord? hword]
    · rcases List.mem_append.mp hc with hc | hc
      · exact isLoose_of_isAsciiWord ((isWord_of_readWord? hword).2 c hc)
      · exact hfront c hc
  · simp at hrest

/-- Nothing but words and white space stands before the semicolon of a getter. -/
theorem exists_of_readGetter? {text rest : List Char} (h : readGetter? text = some rest) :
    ∃ front more, text = front ++ ';' :: more ∧ ∀ c ∈ front, isLoose c = true := by
  obtain ⟨after, hget, hsemicolon⟩ := Option.bind_eq_some_iff.mp h
  have haccess : ∃ front, text = front ++ skipAccess text ∧ ∀ c ∈ front, isLoose c = true := by
    rw [skipAccess]
    cases hkeyword : readKeyword? accessModifiers text with
    | none => exact ⟨[], rfl, by simp⟩
    | some rest => exact exists_of_readKeyword? hkeyword
  obtain ⟨front, hfront, hloose⟩ := haccess
  unfold readSemicolon? at hsemicolon
  split at hsemicolon
  · next more hmore =>
      refine ⟨front ++ ("get".toList ++ after.takeWhile isSpace), more, ?_, ?_⟩
      · rw [List.append_assoc, List.append_assoc, ← hmore, skipSpaces,
          List.takeWhile_append_dropWhile, ← eq_append_of_readText? hget]
        exact hfront
      · intro c hc
        rcases List.mem_append.mp hc with hc | hc
        · exact hloose c hc
        · rcases List.mem_append.mp hc with hc | hc
          · have hget : ∀ c ∈ "get".toList, isLoose c = true :=
              List.forall_iff_forall_mem.mp (by decide)
            exact hget c hc
          · exact isLoose_of_mem_takeWhile hc
  · simp at hsemicolon

/-- A text in which a character other than a semicolon comes first behind words and white space. -/
def Blocked (text : List Char) : Prop :=
  ∃ front c more, text = front ++ c :: more ∧ (∀ d ∈ front, isLoose d = true) ∧
    isLoose c = false ∧ c ≠ ';'

theorem Blocked.append {front text : List Char} (h : Blocked text)
    (hfront : ∀ c ∈ front, isLoose c = true) : Blocked (front ++ text) := by
  obtain ⟨front', c, more, rfl, hfront', hc⟩ := h
  refine ⟨front ++ front', c, more, (List.append_assoc _ _ _).symm, fun d hd => ?_, hc⟩
  rcases List.mem_append.mp hd with hd | hd
  · exact hfront d hd
  · exact hfront' d hd

theorem Blocked.append_right {text : List Char} (h : Blocked text) (rest : List Char) :
    Blocked (text ++ rest) := by
  obtain ⟨front, c, more, rfl, hfront⟩ := h
  exact ⟨front, c, more ++ rest, by simp, hfront⟩

theorem blocked_cons {c : Char} (hc : isLoose c = false) (hne : c ≠ ';') (more : List Char) :
    Blocked (c :: more) :=
  ⟨[], c, more, rfl, by simp, hc, hne⟩

/-- Behind an opening brace a blocked text holds no accessors. -/
theorem Blocked.readBody?_eq_none {text : List Char} (h : Blocked text) :
    readBody? ('\x7b' :: text) = none := by
  obtain ⟨front, c, more, htext, hfront, hc, hne⟩ := h
  rw [Option.eq_none_iff_forall_ne_some]
  intro rest hrest
  obtain ⟨after, hgetter, _⟩ := Option.bind_eq_some_iff.mp hrest
  obtain ⟨front', more', hskip, hfront'⟩ := exists_of_readGetter? hgetter
  have hspaces : text = (text.takeWhile isSpace ++ front') ++ ';' :: more' := by
    rw [List.append_assoc, ← hskip, skipSpaces, List.takeWhile_append_dropWhile]
  have hloose : ∀ d ∈ text.takeWhile isSpace ++ front', isLoose d = true := by
    intro d hd
    rcases List.mem_append.mp hd with hd | hd
    · exact isLoose_of_mem_takeWhile hd
    · exact hfront' d hd
  have hdrop : text.dropWhile isLoose = c :: more := by
    rw [htext]
    exact dropWhile_append_of_boundary hfront (by simpa using hc)
  have hdrop' : text.dropWhile isLoose = ';' :: more' := by
    rw [hspaces]
    exact dropWhile_append_of_boundary hloose rfl
  exact hne (List.cons.inj (hdrop.symm.trans hdrop')).1

theorem isLoose_of_mem_spacedChars {front : List String}
    (h : ∀ word ∈ front, IsWord word.toList) : ∀ c ∈ spacedChars front, isLoose c = true := by
  intro c hc
  obtain ⟨word, hword, hc⟩ := List.mem_flatMap.mp hc
  rcases List.mem_append.mp hc with hc | hc
  · exact isLoose_of_isAsciiWord ((h word hword).2 c hc)
  · obtain rfl := List.mem_singleton.mp hc
    decide

theorem blocked_body {body rest : List Char} (h : readBody? body = some rest) : Blocked body := by
  obtain ⟨c, hc, more, rfl⟩ := exists_head?_of_readBody? h
  obtain ⟨hspace, hword, hne, _⟩ := class_of_mem_openers hc
  exact blocked_cons (by simp [isLoose, hspace, hword]) hne more

theorem blocked_chars {type : TypeExpr} (htype : TypeExpr.AllNames IsWord type)
    {after : List Char} (hafter : Blocked after) : Blocked (type.chars ++ after) := by
  cases htype with
  | @intro name arguments rank isNullable hname _ =>
      rw [TypeExpr.chars_mk, List.append_assoc, List.append_assoc]
      apply Blocked.append ?_ fun c hc => isLoose_of_isAsciiWord (hname.2 c hc)
      cases arguments with
      | cons argument arguments => exact blocked_cons (by decide) (by decide) _
      | nil =>
          rcases TypeExpr.suffixChars_eq_nil_or_cons rank isNullable with
            hnil | ⟨c, hc, more, hcons⟩
          · rwa [hnil]
          · obtain ⟨hspace, _, hword, _⟩ := TypeExpr.class_of_mem_marks hc
            have hne : c ≠ ';' := by
              rintro rfl
              simp at hc
            rw [hcons]
            exact blocked_cons (by simp [isLoose, hspace, hword]) hne _

theorem PropertyDeclaration.blocked (property : PropertyDeclaration) (rest : List Char) :
    Blocked (property.chars ++ rest) := by
  have hread : readBody? property.body.chars = some [] := by
    have hends : property.body.EndsBefore [] := property.body.endsBefore (by decide)
    simpa using property.body.readBody?_append hends
  have hbody := (blocked_body hread).append_right rest
  rw [PropertyDeclaration.chars]
  simp only [List.append_assoc, List.cons_append]
  apply Blocked.append ?_ (isLoose_of_mem_spacedChars property.isWord_of_mem_access)
  apply Blocked.append ?_ (isLoose_of_mem_spacedChars property.isWord_of_mem_members)
  apply blocked_chars property.type_names
  have hname : ∀ c ∈ ' ' :: (property.name ++ [' ']), isLoose c = true := by
    have hblank : isLoose ' ' = true := by decide
    intro c hc
    simp only [List.mem_cons, List.mem_append, List.not_mem_nil, or_false] at hc
    rcases hc with rfl | hc | rfl
    · exact hblank
    · exact isLoose_of_isAsciiWord (property.name_isWord.2 c hc)
    · exact hblank
  simpa using hbody.append hname

/-! ### Class headers -/

/-- The header of a public class up to its brace. -/
def classHeader (name : List Char) : List Char :=
  "public".toList ++ ' ' :: ("class".toList ++ ' ' :: (name ++ [' ', '\x7b']))

theorem classHeader_append (name rest : List Char) :
    classHeader name ++ rest = "public".toList ++
      ' ' :: ("class".toList ++ ' ' :: (name ++ ' ' :: '\x7b' :: rest)) := by
  unfold classHeader
  simp

theorem isWord_public : IsWord "public".toList := by decide

theorem isWord_class : IsWord "class".toList := by decide

section Header

variable {name : List Char} (hname : IsWord name)

include hname

/-- A class whose body does not begin like a list of accessors is no property. -/
theorem readProperty?_classHeader {rest : List Char} (h : Blocked rest) :
    readProperty? (classHeader name ++ rest) = none := by
  have hclass : readTypedProperty? ("class".toList ++ ' ' :: (name ++ ' ' :: '\x7b' :: rest)) =
      none := by
    apply readTypedProperty?_eq_none_of_body isWord_class hname rfl
    rw [skipSpaces_space rfl]
    exact h.readBody?_eq_none
  have hpublic : readTypedProperty? ("public".toList ++
      ' ' :: ("class".toList ++ ' ' :: (name ++ ' ' :: '\x7b' :: rest))) = none := by
    apply readTypedProperty?_eq_none_of_body isWord_public isWord_class rfl
    rw [skipSpaces_space (hname.isSpace_head? _), Option.eq_none_iff_forall_ne_some]
    intro after hafter
    obtain ⟨c, more, rfl, hword, _⟩ := hname.exists_cons
    have hboundary := (head?_body hafter).2
    simp [hword] at hboundary
  rw [classHeader_append, readProperty?, findSome?_afterKeywords_eq_self]
  · rw [findSome?_afterKeywords_of_none, hpublic]
    exact readKeyword?_of_not_mem isWord_public rfl (by decide)
  · intro left hleft
    rw [eq_of_readKeyword?_append isWord_public rfl hleft, findSome?_afterKeywords_of_none,
      findSome?_afterKeywords_of_none, hclass]
    · exact readKeyword?_of_not_mem isWord_class rfl (by decide)
    · exact readKeyword?_of_not_mem isWord_class rfl (by decide)

end Header

end TypeScribe.Scan
