import TypeScribe.Proofs.Scan.Keywords
import TypeScribe.Proofs.TypeExpr.ReadBack
import TypeScribe.Scan.AutoProperty

/-!
# Reading a declared property

A property that is written as modifiers, the written form of a type, a name and a body is read with
just that type and that name, also when names are spelled like modifiers. Of the places at which the
generic part may end, those before the last `>` of the type do not count, since what stands behind
them cannot end a type.
-/

namespace TypeScribe.Scan

open Text TypeExpr

theorem IsWord.isName {word : List Char} (h : IsWord word) : IsName word :=
  ⟨h.1, fun c hc => isNameChar_of_isAsciiWord (h.2 c hc)⟩

theorem isAsciiWord_head?_chars {type : TypeExpr} (h : AllNames IsWord type) (rest : List Char) :
    (type.chars ++ rest).head?.any isAsciiWord = true := by
  cases h with
  | intro hname _ =>
      rw [chars_mk, List.append_assoc]
      exact hname.isAsciiWord_head? _

/-! ### The end of the type -/

theorem skipBrackets_bracketChars (rank : Nat) {rest : List Char} (hrest : rest.head? ≠ some '[') :
    skipBrackets (bracketChars rank ++ rest) = rest := by
  induction rank with
  | zero =>
      rw [skipBrackets.eq_def]
      split
      · next inside hinside =>
          obtain rfl : rest = '[' :: inside := hinside
          simp at hrest
      · rfl
  | succ rank ih =>
      rw [bracketChars_succ, skipBrackets.eq_def]
      exact ih

/-- The mark and the brackets of a type are skipped. -/
theorem skipBrackets_suffixChars (rank : Nat) (isNullable : Bool) {rest : List Char}
    (hmark : rest.head? ≠ some '?') (hbracket : rest.head? ≠ some '[') :
    skipBrackets ((readText? "?" (suffixChars rank isNullable ++ rest)).getD
      (suffixChars rank isNullable ++ rest)) = rest := by
  cases isNullable with
  | true =>
      have hread : readText? "?" (suffixChars rank true ++ rest) =
          some (bracketChars rank ++ rest) :=
        isPrefixOf?_eq_some_iff.mpr rfl
      rw [hread, Option.getD_some, skipBrackets_bracketChars rank hbracket]
  | false =>
      have hread : readText? "?" (bracketChars rank ++ rest) = none := by
        rw [Option.eq_none_iff_forall_ne_some]
        intro after hafter
        have hchars := eq_append_of_readText? hafter
        cases rank with
        | zero =>
            rw [bracketChars, List.replicate_zero, List.flatten_nil, List.nil_append] at hchars
            simp [hchars] at hmark
        | succ rank =>
            rw [bracketChars_succ] at hchars
            simp at hchars
      rw [suffixChars]
      simp only [Bool.false_eq_true, if_false, List.nil_append]
      rw [hread, Option.getD_none, skipBrackets_bracketChars rank hbracket]

/-- Behind a mark or brackets white space has to follow. -/
theorem readTypeEnd?_of_skipSpaces (rank : Nat) (isNullable : Bool) {text rest : List Char}
    (hskip : skipSpaces text = suffixChars rank isNullable ++ rest)
    (hword : (suffixChars rank isNullable ++ rest).head?.any isAsciiWord = false)
    (hmark : rest.head? ≠ some '?') (hbracket : rest.head? ≠ some '[') :
    readTypeEnd? text = (readSpaces? rest).map fun after => (rest, after) := by
  rw [readTypeEnd?, hskip]
  simp only [hword, Bool.false_eq_true, if_false]
  rw [skipBrackets_suffixChars rank isNullable hmark hbracket]

theorem readTypeEnd?_space {name : List Char} (h : IsWord name) (rest : List Char) :
    readTypeEnd? (' ' :: (name ++ rest)) = some (name ++ rest, name ++ rest) := by
  obtain ⟨c, more, rfl, hword, hspace⟩ := h.exists_cons
  rw [readTypeEnd?, skipSpaces_space (by simpa using hspace)]
  simp [hword, isSpace_space]

/-- Behind the type and one space the property's name begins. -/
theorem exists_readTypeEnd?_suffixChars (rank : Nat) (isNullable : Bool) {name : List Char}
    (h : IsWord name) (rest : List Char) :
    ∃ trail, (∀ c ∈ trail, isSpace c = true) ∧ ∃ after, trail ++ after = ' ' :: (name ++ rest) ∧
      readTypeEnd? (suffixChars rank isNullable ++ ' ' :: (name ++ rest)) =
        some (after, name ++ rest) := by
  rcases suffixChars_eq_nil_or_cons rank isNullable with hnil | ⟨c, hc, more, hcons⟩
  · refine ⟨[' '], by simp [isSpace_space], name ++ rest, rfl, ?_⟩
    rw [hnil]
    exact readTypeEnd?_space h rest
  · obtain ⟨hspace, _, hword, _⟩ := class_of_mem_marks hc
    refine ⟨[], by simp, ' ' :: (name ++ rest), rfl, ?_⟩
    rw [readTypeEnd?_of_skipSpaces rank isNullable (skipSpaces_eq_self _),
      readSpaces?_space (h.isSpace_head? rest), Option.map_some]
    · rw [hcons]
      exact hword
    · simp
    · simp
    · rw [hcons]
      exact hspace

/-- No type ends before a comma or before a further `>`. -/
theorem readTypeEnd?_suffixChars_eq_none (rank : Nat) (isNullable : Bool) {c : Char}
    (hc : c ∈ [',', '>']) (rest : List Char) :
    readTypeEnd? (suffixChars rank isNullable ++ c :: rest) = none := by
  have hclosers : ∀ closer ∈ [',', '>'], isSpace closer = false ∧ isAsciiWord closer = false ∧
      closer ≠ '?' ∧ closer ≠ '[' :=
    List.forall_iff_forall_mem.mp (by decide)
  obtain ⟨hspace, hword, hmark, hbracket⟩ := hclosers c hc
  have hhead : (suffixChars rank isNullable ++ c :: rest).head?.any isSpace = false ∧
      (suffixChars rank isNullable ++ c :: rest).head?.any isAsciiWord = false := by
    rcases suffixChars_eq_nil_or_cons rank isNullable with hnil | ⟨mark, hmem, more, hcons⟩
    · rw [hnil]
      exact ⟨hspace, hword⟩
    · obtain ⟨hspace', _, hword', _⟩ := class_of_mem_marks hmem
      rw [hcons]
      exact ⟨hspace', hword'⟩
  rw [readTypeEnd?_of_skipSpaces rank isNullable (skipSpaces_eq_self hhead.1) hhead.2
    (by simpa using hmark) (by simpa using hbracket), readSpaces?_eq_none (by simpa using hspace),
    Option.map_none]

/-! ### The generic part -/

section Generic

variable {α : Type} {read : List Char → Option α}
  (hread : ∀ rest, readTypeEnd? rest = none → read rest = none)

theorem afterGeneric_append {text : List Char}
    (h : ∀ c ∈ text, c ≠ '>' ∧ c ∉ [';', '\x7b', '\x7d', '=', '\r', '\n']) (rest : List Char) :
    afterGeneric (text ++ rest) = afterGeneric rest := by
  induction text with
  | nil => rfl
  | cons c text ih =>
      obtain ⟨hclose, hstop⟩ := h c List.mem_cons_self
      rw [List.cons_append, afterGeneric, if_neg hclose, if_neg hstop]
      exact ih fun d hd => h d (List.mem_cons_of_mem c hd)

theorem not_mem_stops_of_isAsciiWord {c : Char} (h : isAsciiWord c = true) :
    c ≠ '>' ∧ c ∉ [';', '\x7b', '\x7d', '=', '\r', '\n'] := by
  have hstops : ∀ stop ∈ ['>', ';', '\x7b', '\x7d', '=', '\r', '\n'],
      isAsciiWord stop = false :=
    List.forall_iff_forall_mem.mp (by decide)
  rw [← not_or, ← List.mem_cons]
  intro hmem
  simp [hstops c hmem] at h

theorem mem_marks_of_mem_suffixChars {rank : Nat} {isNullable : Bool} {c : Char}
    (hc : c ∈ suffixChars rank isNullable) : c ∈ ['?', '[', ']'] := by
  simp only [suffixChars, bracketChars, List.mem_append, List.mem_flatten, List.mem_replicate] at hc
  rcases hc with hc | ⟨pair, ⟨_, rfl⟩, hc⟩
  · split at hc
    · exact List.mem_cons.mpr (.inl (List.mem_singleton.mp hc))
    · simp at hc
  · exact List.mem_cons_of_mem '?' hc

theorem afterGeneric_suffixChars (rank : Nat) (isNullable : Bool) (rest : List Char) :
    afterGeneric (suffixChars rank isNullable ++ rest) = afterGeneric rest := by
  have hmarks : ∀ mark ∈ ['?', '[', ']'],
      mark ≠ '>' ∧ mark ∉ [';', '\x7b', '\x7d', '=', '\r', '\n'] :=
    List.forall_iff_forall_mem.mp (by decide)
  exact afterGeneric_append (fun c hc => hmarks c (mem_marks_of_mem_suffixChars hc)) rest

/-- The generic part does not end within an argument. -/
def Hides (read : List Char → Option α) (text : List Char) : Prop :=
  ∀ c ∈ [',', '>'], ∀ rest,
    (afterGeneric (text ++ c :: rest)).findSome? read = (afterGeneric (c :: rest)).findSome? read

theorem hides_joinChars {types : List TypeExpr} (h : ∀ type ∈ types, Hides read type.chars) :
    Hides read (joinChars types) := by
  induction types with
  | nil => exact fun _ _ _ => rfl
  | cons type types ih =>
      have hhead := h type List.mem_cons_self
      have htail := ih fun other hother => h other (List.mem_cons_of_mem type hother)
      cases types with
      | nil =>
          rw [joinChars_singleton]
          exact hhead
      | cons other types =>
          intro c hc rest
          have hcomma : afterGeneric (',' :: ' ' :: (joinChars (other :: types) ++ c :: rest)) =
              afterGeneric (joinChars (other :: types) ++ c :: rest) :=
            @afterGeneric_append [',', ' '] (List.forall_iff_forall_mem.mp (by decide)) _
          rw [joinChars_cons_cons, List.append_assoc, List.cons_append, List.cons_append,
            hhead ',' (by simp), hcomma, htail c hc]

include hread

theorem hides_chars {type : TypeExpr} (h : AllNames IsWord type) : Hides read type.chars := by
  induction h with
  | @intro name arguments rank isNullable hname _ ih =>
      intro c hc rest
      have hplain := fun c hc => not_mem_stops_of_isAsciiWord (hname.2 c hc)
      rw [chars_mk, List.append_assoc, afterGeneric_append hplain, List.append_assoc]
      cases arguments with
      | nil =>
          rw [argumentChars, List.nil_append, afterGeneric_suffixChars]
      | cons argument arguments =>
          have hopen : ∀ text, afterGeneric ('<' :: text) = afterGeneric text :=
            @afterGeneric_append ['<'] (List.forall_iff_forall_mem.mp (by decide))
          rw [argumentChars, List.cons_append, List.cons_append, hopen, List.append_assoc,
            List.singleton_append, hides_joinChars ih '>' (by simp), afterGeneric, if_pos rfl,
            List.findSome?_cons, hread _ (readTypeEnd?_suffixChars_eq_none rank isNullable hc rest),
            afterGeneric_suffixChars]

end Generic

/-! ### The whole property -/

/-- What opens a body is neither white space nor part of a word, and it does not belong to a type. -/
theorem class_of_mem_openers {c : Char} (hc : c ∈ ['\x7b', '=']) :
    isSpace c = false ∧ isAsciiWord c = false ∧ c ≠ ';' ∧ c ≠ '?' ∧ c ≠ '[' ∧ c ≠ '<' := by
  have hopeners : ∀ opener ∈ ['\x7b', '='], isSpace opener = false ∧ isAsciiWord opener = false ∧
      opener ≠ ';' ∧ opener ≠ '?' ∧ opener ≠ '[' ∧ opener ≠ '<' :=
    List.forall_iff_forall_mem.mp (by decide)
  exact hopeners c hc

theorem exists_head?_of_readBody? {text rest : List Char} (h : readBody? text = some rest) :
    ∃ c ∈ ['\x7b', '='], ∃ more, text = c :: more := by
  unfold readBody? at h
  split at h
  · exact ⟨'\x7b', by simp, _, rfl⟩
  · exact ⟨'=', by simp, _, rfl⟩
  · simp at h

section Property

variable {name body rest : List Char} (hname : IsWord name) (hbody : readBody? body = some rest)

include hbody

theorem head?_body : body.head?.any isSpace = false ∧ body.head?.any isAsciiWord = false := by
  obtain ⟨c, hc, more, rfl⟩ := exists_head?_of_readBody? hbody
  obtain ⟨hspace, hword, _⟩ := class_of_mem_openers hc
  exact ⟨hspace, hword⟩

theorem readTypedProperty?_body : readTypedProperty? body = none := by
  rw [readTypedProperty?, afterTypeName, readWord?_eq_none (head?_body hbody).2]
  rfl

include hname

theorem readNameAndBody?_append : readNameAndBody? (name ++ ' ' :: body) = some (name, rest) := by
  rw [readNameAndBody?, readWord?_append hname rfl]
  simp [skipSpaces_space (head?_body hbody).1, hbody]

theorem readTypedProperty?_name : readTypedProperty? (name ++ ' ' :: body) = none := by
  obtain ⟨hspace, hword⟩ := head?_body hbody
  obtain ⟨c, hc, more, rfl⟩ := exists_head?_of_readBody? hbody
  obtain ⟨_, _, _, hmark, hbracket, hangle⟩ := class_of_mem_openers hc
  have hskip : skipSpaces (' ' :: c :: more) = suffixChars 0 false ++ c :: more :=
    skipSpaces_space hspace
  have hend : readTypeEnd? (' ' :: c :: more) = none := by
    rw [readTypeEnd?_of_skipSpaces 0 false hskip hword (by simpa using hmark)
      (by simpa using hbracket), readSpaces?_eq_none hspace, Option.map_none]
  have hafter : afterTypeName (name ++ ' ' :: c :: more) = [' ' :: c :: more] := by
    rw [afterTypeName, readWord?_append hname rfl]
    simp only [skipSpaces_space hspace]
    split
    · next heq => exact absurd (List.cons.inj heq).1 hangle
    · rfl
  rw [readTypedProperty?, hafter]
  simp [hend]

omit hbody in
/-- Neither the name of the type nor a generic part goes on in its suffixes. -/
theorem suffixChars_boundary (rank : Nat) (isNullable : Bool) (rest : List Char) :
    (suffixChars rank isNullable ++ ' ' :: (name ++ rest)).head?.any isAsciiWord = false ∧
      ∀ generic, skipSpaces (suffixChars rank isNullable ++ ' ' :: (name ++ rest)) ≠
        '<' :: generic := by
  rcases suffixChars_eq_nil_or_cons rank isNullable with hnil | ⟨c, hc, more, hcons⟩
  · refine ⟨by rw [hnil]; rfl, fun generic heq => ?_⟩
    rw [hnil, List.nil_append, skipSpaces_space (hname.isSpace_head? rest)] at heq
    obtain ⟨c, more, rfl, hword, _⟩ := hname.exists_cons
    obtain ⟨rfl, _⟩ := List.cons.inj heq
    exact absurd hword (by decide)
  · obtain ⟨hspace, _, hword, hangle⟩ := class_of_mem_marks hc
    rw [hcons, List.cons_append, skipSpaces_eq_self (by simpa using hspace)]
    exact ⟨hword, fun generic heq => hangle (List.cons.inj heq).1⟩

omit hbody in
/-- Behind the name and the arguments of the type the reading goes on with its suffixes. -/
theorem findSome?_afterTypeName {type : TypeExpr} (htype : AllNames IsWord type) {α : Type}
    {read : List Char → Option α} (hread : ∀ rest, readTypeEnd? rest = none → read rest = none)
    {found : α} {after : List Char}
    (hfound : read (suffixChars type.rank type.isNullable ++ ' ' :: (name ++ after)) =
      some found) :
    (afterTypeName (type.chars ++ ' ' :: (name ++ after))).findSome? read = some found := by
  have hargument := @hides_chars _ read hread
  cases htype with
  | @intro typeName arguments rank isNullable htypeName harguments =>
      obtain ⟨hword, hangle⟩ := suffixChars_boundary hname rank isNullable after
      dsimp only at hfound
      rw [chars_mk, List.append_assoc, List.append_assoc, afterTypeName]
      cases arguments with
      | nil =>
          rw [argumentChars, List.nil_append, readWord?_append htypeName hword]
          dsimp only
          split
          · next generic hgeneric => exact absurd hgeneric (hangle generic)
          · simp [hfound]
      | cons argument arguments =>
          have hhides := hides_joinChars fun type hmem => hargument (harguments type hmem)
          rw [argumentChars, readWord?_append htypeName (by rfl)]
          simp only [List.cons_append, List.append_assoc]
          rw [skipSpaces_eq_self (by rfl)]
          change (afterGeneric (joinChars (argument :: arguments) ++
            '>' :: (suffixChars rank isNullable ++ ' ' :: (name ++ after)))).findSome? read = _
          rw [hhides '>' (by simp), afterGeneric, if_pos rfl, List.findSome?_cons, hfound]

/-- Where a type, a name and a body stand, they are what is read. -/
theorem exists_readTypedProperty?_chars {type : TypeExpr} (htype : AllNames IsWord type) :
    ∃ trail, (∀ c ∈ trail, isSpace c = true) ∧
      readTypedProperty? (type.chars ++ ' ' :: (name ++ ' ' :: body)) =
        some ⟨type.chars ++ trail, name, rest⟩ := by
  obtain ⟨trail, htrail, after, hafter, hend⟩ :=
    exists_readTypeEnd?_suffixChars type.rank type.isNullable hname (' ' :: body)
  refine ⟨trail, htrail, ?_⟩
  have htake : (type.chars ++ ' ' :: (name ++ ' ' :: body)).take
      ((type.chars ++ ' ' :: (name ++ ' ' :: body)).length - after.length) =
        type.chars ++ trail := by
    rw [← hafter, ← List.append_assoc, List.length_append, Nat.add_sub_cancel, List.take_left']
    rfl
  rw [readTypedProperty?, findSome?_afterTypeName hname htype]
  · intro rest hnone
    rw [hnone]
    rfl
  · rw [hend]
    simp only [Option.bind_eq_bind, Option.bind_some, readNameAndBody?_append hname hbody, htake]
    rfl

/-! Of the texts that begin with the type, with the name and with the body, only the first is a
property, and this stays so when keywords may be taken off the front. -/

/-- Among the three parts of a declaration only the whole one is read. -/
structure ReadsWhole {α : Type} (read : List Char → Option α) (type name body : List Char)
    (found : α) : Prop where
  whole : read (type ++ ' ' :: (name ++ ' ' :: body)) = some found
  name : read (name ++ ' ' :: body) = none
  body : read body = none

omit hbody in
theorem eq_of_readKeyword?_chars {type : TypeExpr} (htype : AllNames IsWord type)
    {words : List String} {after left : List Char}
    (h : readKeyword? words (type.chars ++ ' ' :: (name ++ after)) = some left) :
    left = name ++ after := by
  cases htype with
  | @intro typeName arguments rank isNullable htypeName _ =>
      rw [chars_mk, List.append_assoc, List.append_assoc] at h
      cases arguments with
      | nil =>
          rw [argumentChars, List.nil_append, readKeyword?_append htypeName
            (suffixChars_boundary hname rank isNullable after).1] at h
          rcases suffixChars_eq_nil_or_cons rank isNullable with hnil | ⟨c, hc, more, hcons⟩
          · rw [hnil, List.nil_append, readSpaces?_space (hname.isSpace_head? after)] at h
            split at h
            · exact (Option.some.inj h).symm
            · simp at h
          · obtain ⟨hspace, _⟩ := class_of_mem_marks hc
            rw [hcons, List.cons_append, readSpaces?_eq_none (by simpa using hspace)] at h
            simp at h
      | cons argument arguments =>
          rw [readKeyword?_append htypeName (by rfl), readSpaces?_eq_none (by rfl)] at h
          simp at h

theorem readsWhole_readTypedProperty? {type : TypeExpr} (htype : AllNames IsWord type) :
    ∃ trail, (∀ c ∈ trail, isSpace c = true) ∧
      ReadsWhole readTypedProperty? type.chars name body ⟨type.chars ++ trail, name, rest⟩ := by
  obtain ⟨trail, htrail, hwhole⟩ := exists_readTypedProperty?_chars hname hbody htype
  exact ⟨trail, htrail, hwhole, readTypedProperty?_name hname hbody, readTypedProperty?_body hbody⟩

theorem ReadsWhole.afterKeywords {α : Type} {read : List Char → Option α} {type : TypeExpr}
    {found : α} (h : ReadsWhole read type.chars name body found) (htype : AllNames IsWord type)
    (words : List String) :
    ReadsWhole (fun text => (afterKeywords words text).findSome? read) type.chars name body
      found := by
  obtain ⟨hspace, hword⟩ := head?_body hbody
  have hlast : (Scan.afterKeywords words body).findSome? read = none := by
    have hnone : readKeyword? words body = none :=
      readKeyword?_of_readWord?_eq_none (readWord?_eq_none hword)
    rw [findSome?_afterKeywords_of_none hnone, h.body]
  have hmiddle : (Scan.afterKeywords words (name ++ ' ' :: body)).findSome? read = none := by
    rw [findSome?_afterKeywords_eq_self, h.name]
    intro left hleft
    rw [eq_of_readKeyword?_append hname hspace hleft]
    exact hlast
  refine ⟨?_, hmiddle, hlast⟩
  rw [findSome?_afterKeywords_eq_self, h.whole]
  intro left hleft
  rw [eq_of_readKeyword?_chars hname htype hleft]
  exact hmiddle

end Property

theorem isWord_of_mem_accessModifiers : ∀ word ∈ accessModifiers, IsWord word.toList := by
  decide

theorem isWord_of_mem_memberModifiers : ∀ word ∈ memberModifiers, IsWord word.toList := by
  decide

theorem not_mem_accessModifiers : ∀ word ∈ memberModifiers, word ∉ accessModifiers := by
  decide

/-- **A declared property is read as it is declared**: modifiers of both kinds are skipped, and the
type is found with nothing but white space behind it. -/
theorem exists_readProperty?_declared {access members : List String} {type : TypeExpr}
    {name body rest : List Char} (haccess : ∀ word ∈ access, word ∈ accessModifiers)
    (hmembers : ∀ word ∈ members, word ∈ memberModifiers) (htype : AllNames IsWord type)
    (hname : IsWord name) (hbody : readBody? body = some rest) :
    ∃ trail, (∀ c ∈ trail, isSpace c = true) ∧
      readProperty? (spacedChars access ++ (spacedChars members ++
        (type.chars ++ ' ' :: (name ++ ' ' :: body)))) =
          some ⟨type.chars ++ trail, name, rest⟩ := by
  obtain ⟨trail, htrail, htyped⟩ := readsWhole_readTypedProperty? hname hbody htype
  have hmember := htyped.afterKeywords hname hbody htype memberModifiers
  refine ⟨trail, htrail, ?_⟩
  have hhead := isAsciiWord_head?_chars htype (' ' :: (name ++ ' ' :: body))
  have hwords := fun word hword => isWord_of_mem_memberModifiers word (hmembers word hword)
  have hbehind := findSome?_afterKeywords_spacedChars isWord_of_mem_memberModifiers hmembers hhead
    hmember.whole
  apply findSome?_afterKeywords_spacedChars isWord_of_mem_accessModifiers haccess
  · exact isAsciiWord_head?_spacedChars hwords hhead
  · cases members with
    | nil => exact (hmember.afterKeywords hname hbody htype accessModifiers).whole
    | cons word members =>
        have hword := hmembers word List.mem_cons_self
        rw [findSome?_afterKeywords_of_none]
        · exact hbehind
        · rw [spacedChars_cons]
          exact readKeyword?_of_not_mem (isWord_of_mem_memberModifiers word hword) rfl
            (by rw [String.ofList_toList]; exact not_mem_accessModifiers word hword)

/-! ### Declarations -/

/-- Text that ends at the first semicolon behind it. -/
structure Statement where
  chars : List Char
  fits : ∀ c ∈ chars, c ≠ ';' ∧ isLineBreak c = false

inductive Accessors where
  | get
  | getSet
  | getInit
  deriving DecidableEq

def Accessors.chars : Accessors → List Char
  | .get => "\x7b get; \x7d".toList
  | .getSet => "\x7b get; set; \x7d".toList
  | .getInit => "\x7b get; init; \x7d".toList

/-- What follows the name of a property. -/
inductive PropertyBody where
  | accessors (kind : Accessors) (initializer : Option Statement)
  | expression (value : Statement)

def PropertyBody.chars : PropertyBody → List Char
  | .accessors kind none => kind.chars
  | .accessors kind (some value) => kind.chars ++ " = ".toList ++ value.chars ++ [';']
  | .expression value => "=> ".toList ++ value.chars ++ [';']

/-- A property as a class declares it, on one line and with single spaces. -/
structure PropertyDeclaration where
  access : List String
  members : List String
  type : TypeExpr
  name : List Char
  body : PropertyBody
  access_mem : ∀ word ∈ access, word ∈ accessModifiers
  members_mem : ∀ word ∈ members, word ∈ memberModifiers
  type_names : AllNames IsWord type
  name_isWord : IsWord name

def PropertyDeclaration.chars (property : PropertyDeclaration) : List Char :=
  spacedChars property.access ++ (spacedChars property.members ++
    (property.type.chars ++ ' ' :: (property.name ++ ' ' :: property.body.chars)))

namespace PropertyDeclaration

variable (property : PropertyDeclaration)

theorem isWord_of_mem_access : ∀ word ∈ property.access, IsWord word.toList :=
  fun word hword => isWord_of_mem_accessModifiers word (property.access_mem word hword)

theorem isWord_of_mem_members : ∀ word ∈ property.members, IsWord word.toList :=
  fun word hword => isWord_of_mem_memberModifiers word (property.members_mem word hword)

theorem isAsciiWord_head? (rest : List Char) :
    (property.chars ++ rest).head?.any isAsciiWord = true := by
  rw [PropertyDeclaration.chars, List.append_assoc]
  apply isAsciiWord_head?_spacedChars property.isWord_of_mem_access
  rw [List.append_assoc]
  apply isAsciiWord_head?_spacedChars property.isWord_of_mem_members
  rw [List.append_assoc]
  exact isAsciiWord_head?_chars property.type_names _

end PropertyDeclaration

theorem Statement.readStatement?_append (value : Statement) (rest : List Char) :
    readStatement? (' ' :: (value.chars ++ ';' :: rest)) = some rest := by
  have hfits : ∀ c ∈ ' ' :: value.chars, (c != ';' && !isLineBreak c) = true := by
    intro c hc
    rcases List.mem_cons.mp hc with rfl | hc
    · decide
    · simpa using value.fits c hc
  have hdrop : (' ' :: value.chars ++ ';' :: rest).dropWhile
      (fun c => c != ';' && !isLineBreak c) = ';' :: rest :=
    dropWhile_append_of_boundary hfits rfl
  rw [List.cons_append] at hdrop
  rw [readStatement?, hdrop]
  rfl

theorem Accessors.readBody?_append (kind : Accessors) (rest : List Char) :
    readBody? (kind.chars ++ rest) = some ((readInitializer? rest).getD rest) := by
  cases kind <;> rfl

/-- The body is complete before `rest`. Bare accessors could go on with an initializer. -/
def PropertyBody.EndsBefore : PropertyBody → List Char → Prop
  | .accessors _ none, rest => (skipBlanks rest).head? ≠ some '='
  | .accessors _ (some _), _ => True
  | .expression _, _ => True

theorem PropertyBody.endsBefore (body : PropertyBody) {rest : List Char}
    (h : (skipBlanks rest).head? ≠ some '=') : body.EndsBefore rest := by
  cases body with
  | accessors kind initializer =>
      cases initializer with
      | none => exact h
      | some value => trivial
  | expression value => trivial

theorem PropertyBody.readBody?_append (body : PropertyBody) {rest : List Char}
    (hrest : body.EndsBefore rest) : readBody? (body.chars ++ rest) = some rest := by
  cases body with
  | accessors kind initializer =>
      cases initializer with
      | none =>
          have hnone : readInitializer? rest = none := by
            unfold readInitializer?
            split
            · next heq => exact absurd (congrArg List.head? heq) hrest
            · rfl
          rw [PropertyBody.chars, kind.readBody?_append, hnone, Option.getD_none]
      | some value =>
          have hsome : readInitializer? (" = ".toList ++ (value.chars ++ ';' :: rest)) =
              some rest :=
            value.readStatement?_append rest
          rw [PropertyBody.chars, List.append_assoc, List.append_assoc, List.append_assoc,
            List.singleton_append, kind.readBody?_append, hsome, Option.getD_some]
  | expression value =>
      rw [PropertyBody.chars, List.append_assoc, List.append_assoc, List.singleton_append]
      exact value.readStatement?_append rest

theorem PropertyDeclaration.exists_readProperty? (property : PropertyDeclaration)
    {rest : List Char} (hrest : property.body.EndsBefore rest) :
    ∃ trail, (∀ c ∈ trail, isSpace c = true) ∧
      readProperty? (property.chars ++ rest) =
        some ⟨property.type.chars ++ trail, property.name, rest⟩ := by
  have hbody := property.body.readBody?_append hrest
  obtain ⟨trail, htrail, hread⟩ := exists_readProperty?_declared property.access_mem
    property.members_mem property.type_names property.name_isWord hbody
  refine ⟨trail, htrail, ?_⟩
  rw [← hread, PropertyDeclaration.chars]
  simp only [List.append_assoc, List.cons_append]

end TypeScribe.Scan
