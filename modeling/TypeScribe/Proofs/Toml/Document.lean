import TypeScribe.Proofs.Text.CharClass
import TypeScribe.Toml.Document

/-!
# Reading what was written

Comment lines, and a key with an array of texts, in the plainest of the forms that a document may give
them. Each reader is run on the written form with any rest behind it.
-/

namespace TypeScribe.Toml

open Text

/-- Texts between double quotes, with a comma and a blank between each two. -/
def textChars (texts : List (List Char)) : List Char :=
  [',', ' '].intercalate (texts.map fun text => '"' :: text ++ ['"'])

/-- The character stands for itself between double quotes. -/
def isUnescaped (c : Char) : Bool := isPlain c && c != '"' && c != '\\'

section Readers

variable {content key rest text : List Char} {texts : List (List Char)} {c : Char}

theorem ne_of_isPlain (h : isPlain c = true) : c ≠ '\n' ∧ c ≠ '\r' := by
  constructor <;> rintro rfl <;> exact absurd h (by decide)

theorem of_isUnescaped (h : isUnescaped c = true) : isPlain c = true ∧ c ≠ '"' ∧ c ≠ '\\' := by
  simpa [isUnescaped, and_assoc] using h

/-! ### Comments -/

theorem skipGap?_comment (h : ∀ c ∈ content, isPlain c = true) (rest : List Char) :
    skipGap? true (content ++ '\n' :: rest) = skipGap? false rest := by
  induction content with
  | nil => rfl
  | cons c content ih =>
      obtain ⟨hplain, hcontent⟩ := List.forall_mem_cons.mp h
      obtain ⟨hfeed, hreturn⟩ := ne_of_isPlain hplain
      rw [List.cons_append, skipGap?.eq_def]
      split
      · next heq => simp at heq
      · next heq => exact absurd (List.cons.inj heq).1 hfeed
      · next heq => exact absurd (List.cons.inj heq).1 hreturn
      · next heq =>
          obtain ⟨rfl, rfl⟩ := List.cons.inj heq
          rw [if_pos rfl, if_pos hplain, ih hcontent]

theorem skipGap?_commentLine (h : ∀ c ∈ content, isPlain c = true) (rest : List Char) :
    skipGap? false ('#' :: content ++ '\n' :: rest) = skipGap? false rest :=
  skipGap?_comment h rest

/-! ### Texts -/

theorem readBasic?_append (h : ∀ c ∈ content, isUnescaped c = true) (rest : List Char) :
    readBasic? (content ++ '"' :: rest) = some (content, rest) := by
  induction content with
  | nil => rw [List.nil_append, readBasic?]
  | cons c content ih =>
      obtain ⟨hc, hcontent⟩ := List.forall_mem_cons.mp h
      obtain ⟨hplain, hquote, hslash⟩ := of_isUnescaped hc
      rw [List.cons_append, readBasic?.eq_def]
      split
      · next heq => simp at heq
      · next heq => exact absurd (List.cons.inj heq).1 hquote
      · next heq => exact absurd (List.cons.inj heq).1 hslash
      · next heq =>
          obtain ⟨rfl, rfl⟩ := List.cons.inj heq
          rw [if_pos hplain, ih hcontent]
          rfl

/-- A third quote behind an empty text would open a long one. -/
theorem readValue?_text (h : ∀ c ∈ content, isUnescaped c = true) (hrest : rest.head? ≠ some '"')
    (depth : Nat) : readValue? depth ('"' :: content ++ '"' :: rest) =
      some (.text (String.ofList content), rest) := by
  have hread : readString? ('"' :: (content ++ '"' :: rest)) = some (content, rest) := by
    rw [readString?]
    · exact readBasic?_append h rest
    · intro more heq
      cases content with
      | nil =>
          obtain ⟨-, rfl⟩ := List.cons.inj heq
          exact hrest rfl
      | cons c content =>
          obtain ⟨rfl, -⟩ := List.cons.inj heq
          exact (of_isUnescaped (h '"' List.mem_cons_self)).2.1 rfl
  rw [List.cons_append, readValue?, hread]
  rfl

/-! ### Arrays -/

section Items

variable {readItem : List Char → Option (Value × List Char)} {item : Value} {items : List Value}
  {body after more : List Char} {fuel : Nat}

theorem readItems?_singleton (htext : skipGap? false text = some body)
    (hbody : body.head? ≠ some ']') (hitem : readItem body = some (item, after))
    (hafter : skipGap? false after = some (']' :: rest)) :
    readItems? readItem (fuel + 1) text = some ([item], rest) := by
  rw [readItems?, htext, Option.bind_eq_bind, Option.bind_some]
  split
  · exact absurd rfl hbody
  · rw [hitem, Option.bind_eq_bind, Option.bind_some]
    dsimp only
    rw [hafter]
    rfl

theorem readItems?_cons (htext : skipGap? false text = some body)
    (hbody : body.head? ≠ some ']') (hitem : readItem body = some (item, after))
    (hafter : skipGap? false after = some (',' :: more))
    (hmore : readItems? readItem fuel more = some (items, rest)) :
    readItems? readItem (fuel + 1) text = some (item :: items, rest) := by
  rw [readItems?, htext, Option.bind_eq_bind, Option.bind_some]
  split
  · exact absurd rfl hbody
  · rw [hitem, Option.bind_eq_bind, Option.bind_some]
    dsimp only
    rw [hafter, Option.bind_eq_bind, Option.bind_some]
    change (readItems? readItem fuel more).bind _ = _
    rw [hmore]
    rfl

end Items

theorem textChars_singleton (text : List Char) : textChars [text] = '"' :: text ++ ['"'] :=
  List.intercalate_singleton

theorem textChars_cons_cons (first second : List Char) (texts : List (List Char)) :
    textChars (first :: second :: texts) =
      '"' :: first ++ '"' :: ',' :: ' ' :: textChars (second :: texts) := by
  simp [textChars, List.intercalate_cons_cons]

theorem exists_textChars_cons (first : List Char) (texts : List (List Char)) :
    ∃ more, textChars (first :: texts) = '"' :: more := by
  obtain ⟨more, hmore⟩ := exists_intercalate_cons [',', ' '] ('"' :: first ++ ['"'])
    (texts.map fun text => '"' :: text ++ ['"'])
  exact ⟨_, hmore⟩

theorem length_le_length_textChars (texts : List (List Char)) :
    texts.length ≤ (textChars texts).length := by
  induction texts with
  | nil => exact Nat.zero_le _
  | cons first texts ih =>
      cases texts with
      | nil =>
          rw [textChars_singleton]
          simp
      | cons second texts =>
          rw [textChars_cons_cons]
          simp only [List.length_append, List.length_cons] at ih ⊢
          omega

/-- Behind the comma of an item the search for the next one passes over a blank. -/
theorem readItems?_texts {fuel : Nat} (depth : Nat)
    (h : ∀ text ∈ texts, ∀ c ∈ text, isUnescaped c = true) (hfuel : texts.length < fuel)
    (htext : skipGap? false text = some (textChars texts ++ ']' :: rest)) :
    readItems? (readValue? depth) fuel text =
      some (texts.map fun text => .text (String.ofList text), rest) := by
  induction texts generalizing fuel text with
  | nil =>
      obtain ⟨fuel, rfl⟩ := Nat.exists_eq_succ_of_ne_zero (Nat.ne_zero_of_lt hfuel)
      rw [readItems?, htext]
      rfl
  | cons first texts ih =>
      obtain ⟨fuel, rfl⟩ := Nat.exists_eq_succ_of_ne_zero (Nat.ne_zero_of_lt hfuel)
      obtain ⟨hfirst, hlater⟩ := List.forall_mem_cons.mp h
      cases texts with
      | nil =>
          rw [textChars_singleton, List.append_assoc] at htext
          exact readItems?_singleton htext (by simp) (readValue?_text hfirst (by simp) depth) rfl
      | cons second texts =>
          rw [textChars_cons_cons, List.append_assoc] at htext
          refine readItems?_cons htext (by simp) (readValue?_text hfirst (by simp) depth) rfl ?_
          refine ih hlater (Nat.lt_of_succ_lt_succ hfuel) ?_
          obtain ⟨more, hmore⟩ := exists_textChars_cons second texts
          rw [hmore]
          rfl

theorem readValue?_texts (depth : Nat) (h : ∀ text ∈ texts, ∀ c ∈ text, isUnescaped c = true)
    (rest : List Char) : readValue? (depth + 1) ('[' :: (textChars texts ++ ']' :: rest)) =
      some (.array (texts.map fun text => .text (String.ofList text)), rest) := by
  have hfuel : texts.length < (textChars texts ++ ']' :: rest).length + 1 := by
    have hlength := length_le_length_textChars texts
    rw [List.length_append]
    omega
  have htext : skipGap? false (textChars texts ++ ']' :: rest) =
      some (textChars texts ++ ']' :: rest) := by
    cases texts with
    | nil => rfl
    | cons first texts =>
        obtain ⟨more, hmore⟩ := exists_textChars_cons first texts
        rw [hmore]
        rfl
  rw [readValue?, readItems?_texts depth h hfuel htext]
  rfl

/-! ### Keys -/

theorem readKeyPart?_bare (hne : key ≠ []) (hkey : ∀ c ∈ key, isBareKeyChar c = true)
    (hrest : rest.head?.any isBareKeyChar = false) :
    readKeyPart? (key ++ rest) = some (String.ofList key, rest) := by
  rw [readKeyPart?]
  · rw [takeWhile_append_of_boundary hkey hrest, dropWhile_append_of_boundary hkey hrest,
      if_neg (by simpa using hne)]
  all_goals
    intro more heq
    cases key with
    | nil => exact hne rfl
    | cons c key =>
        obtain ⟨rfl, -⟩ := List.cons.inj heq
        exact absurd (hkey _ List.mem_cons_self) (by decide)

theorem isBlank_eq_false_of_isBareKeyChar (h : isBareKeyChar c = true) : isBlank c = false := by
  rw [Bool.eq_false_iff]
  intro hblank
  rcases (by simpa [isBlank] using hblank : c = ' ' ∨ c = '\t') with rfl | rfl <;>
    exact absurd h (by decide)

theorem readKey?_bare (hne : key ≠ []) (hkey : ∀ c ∈ key, isBareKeyChar c = true)
    (rest : List Char) : readKey? (key ++ ' ' :: '=' :: rest) =
      some (([], String.ofList key), '=' :: rest) := by
  have hblank : (key ++ ' ' :: '=' :: rest).head?.any isBlank = false := by
    cases key with
    | nil => exact absurd rfl hne
    | cons c key => exact isBlank_eq_false_of_isBareKeyChar (hkey c List.mem_cons_self)
  have hboundary : (' ' :: '=' :: rest).head?.any isBareKeyChar = false := rfl
  rw [readKey?, depthLimit, readKeyParts?, dropWhile_eq_self_of_boundary hblank,
    readKeyPart?_bare hne hkey hboundary]
  rfl

theorem skipGap?_bare (hne : key ≠ []) (hkey : ∀ c ∈ key, isBareKeyChar c = true)
    (rest : List Char) : skipGap? false (key ++ rest) = some (key ++ rest) := by
  cases key with
  | nil => exact absurd rfl hne
  | cons c key =>
      have hc := hkey c List.mem_cons_self
      rw [List.cons_append, skipGap?.eq_def]
      split
      · next heq => simp at heq
      · next heq => exact absurd hc ((List.cons.inj heq).1 ▸ by decide)
      · next heq => exact absurd hc ((List.cons.inj heq).1 ▸ by decide)
      · next heq =>
          obtain ⟨rfl, rfl⟩ := List.cons.inj heq
          have hhash : c ≠ '#' := by
            rintro rfl
            exact absurd hc (by decide)
          rw [if_neg (by decide), isBlank_eq_false_of_isBareKeyChar hc, if_neg (by decide),
            if_neg hhash]

/-! ### Documents -/

/-- Comments on lines of their own, and below them a key with an array of texts. -/
def textsDocument (comments : List (List Char)) (key : List Char) (texts : List (List Char)) :
    List Char :=
  (comments.flatMap fun comment => '#' :: comment ++ ['\n']) ++
    (key ++ ' ' :: '=' :: ' ' :: '[' :: (textChars texts ++ [']', '\n']))

theorem skipGap?_commentLines {comments : List (List Char)}
    (h : ∀ comment ∈ comments, ∀ c ∈ comment, isPlain c = true) (rest : List Char) :
    skipGap? false ((comments.flatMap fun comment => '#' :: comment ++ ['\n']) ++ rest) =
      skipGap? false rest := by
  induction comments with
  | nil => rfl
  | cons comment comments ih =>
      obtain ⟨hcomment, hcomments⟩ := List.forall_mem_cons.mp h
      rw [List.flatMap_cons, List.append_assoc, List.append_assoc, List.singleton_append,
        skipGap?_commentLine hcomment, ih hcomments]

theorem readStatements?_textsDocument {comments : List (List Char)}
    (hcomments : ∀ comment ∈ comments, ∀ c ∈ comment, isPlain c = true) (hne : key ≠ [])
    (hkey : ∀ c ∈ key, isBareKeyChar c = true)
    (htexts : ∀ text ∈ texts, ∀ c ∈ text, isUnescaped c = true) (fuel : Nat) :
    readStatements? (fuel + 2) [] [] (textsDocument comments key texts) =
      some [(String.ofList key, .array (texts.map fun text => .text (String.ofList text)))] := by
  have hgap := (skipGap?_commentLines hcomments _).trans
    (skipGap?_bare hne hkey (' ' :: '=' :: ' ' :: '[' :: (textChars texts ++ [']', '\n'])))
  have hbracket : (key ++ ' ' :: '=' :: ' ' :: '[' :: (textChars texts ++ [']', '\n'])).head? ≠
      some '[' := by
    cases key with
    | nil => exact absurd rfl hne
    | cons c key =>
        intro hhead
        obtain rfl := Option.some.inj hhead
        exact absurd (hkey _ List.mem_cons_self) (by decide)
  rw [textsDocument, readStatements?, hgap, Option.bind_eq_bind, Option.bind_some]
  -- A key does not begin like the header of a table.
  split
  · next heq => simp at heq
  · next heq => exact absurd (congrArg List.head? heq) hbracket
  · next heq => exact absurd (congrArg List.head? heq) hbracket
  · rw [readKey?_bare hne hkey, Option.bind_eq_bind, Option.bind_some]
    change (readValue? depthLimit ('[' :: (textChars texts ++ ']' :: ['\n']))).bind _ = _
    rw [depthLimit, readValue?_texts _ htexts]
    rfl

end Readers

end TypeScribe.Toml
