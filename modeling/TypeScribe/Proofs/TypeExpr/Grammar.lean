import Mathlib.Data.List.DropRight
import Mathlib.Data.List.Forall2
import Mathlib.Data.List.TakeWhile
import TypeScribe.Proofs.Text.CharClass
import TypeScribe.Proofs.TypeExpr.Nesting

/-!
# The grammar of type expressions

The reader does not follow the grammar: it looks for the closing `>` by one count of brackets, cuts
the arguments by another, and reads each piece anew. Still it accepts the texts of the grammar, builds
their trees, and refuses every other text. What it accepts was cut at commas and at the `>`, so a
derivation is put together from those of the pieces. In the other direction brackets of either kind
pair up within a derived text and a comma stands only between them, so both searches pass over the
whole of it.
-/

namespace TypeScribe.TypeExpr

open Text

/-- Every name in the expression, at every depth, satisfies `p`. -/
inductive AllNames (p : List Char → Prop) : TypeExpr → Prop where
  | intro {name : String} {arguments : List TypeExpr} {rank : Nat} {isNullable : Bool}
      (hname : p name.toList) (harguments : ∀ argument ∈ arguments, AllNames p argument) :
      AllNames p ⟨name, arguments, rank, isNullable⟩

theorem AllNames.imp {p q : List Char → Prop} (hpq : ∀ name, p name → q name) {type : TypeExpr}
    (h : AllNames p type) : AllNames q type := by
  induction h with
  | intro hname _ ih => exact .intro (hpq _ hname) ih

/-- A name that the reader takes for one: not empty, and nothing but characters of a name. -/
def IsName (name : List Char) : Prop := name ≠ [] ∧ ∀ c ∈ name, isNameChar c = true

instance (name : List Char) : Decidable (IsName name) :=
  decidable_of_iff (name ≠ [] ∧ name.all isNameChar = true) (by rw [List.all_eq_true]; rfl)

/-! ### The grammar -/

/-- `ws*` -/
def Spaces (text : List Char) : Prop := ∀ c ∈ text, isSpace c = true

theorem spaces_nil : Spaces [] := by
  simp [Spaces]

theorem Spaces.append {left right : List Char} (hleft : Spaces left) (hright : Spaces right) :
    Spaces (left ++ right) := by
  intro c hc
  rcases List.mem_append.mp hc with hc | hc
  · exact hleft c hc
  · exact hright c hc

/-- `('?' ws*)?`, and whether the mark is there. -/
inductive Mark : List Char → Bool → Prop where
  | absent : Mark [] false
  | present {trail : List Char} (htrail : Spaces trail) : Mark ('?' :: trail) true

/-- `('[' (',' | ws)* ']' ws*)*`, and the number of bracket pairs. -/
inductive Brackets : List Char → Nat → Prop where
  | nil : Brackets [] 0
  | cons {inside trail text : List Char} {rank : Nat}
      (hinside : ∀ c ∈ inside, c = ',' ∨ isSpace c = true) (htrail : Spaces trail)
      (htext : Brackets text rank) :
      Brackets ('[' :: inside ++ ']' :: (trail ++ text)) (rank + 1)

/-- `ws* name ws* ('<' type (',' type)* '>' ws*)? mark brackets`, and the expression that is written
so. Each argument stands with its text. No character of a name can follow the name, so the name is
the longest that begins there. -/
inductive Derives : List Char → TypeExpr → Prop where
  | plain {lead name gap mark brackets : List Char} {rank : Nat} {isNullable : Bool}
      (hlead : Spaces lead) (hname : IsName name) (hgap : Spaces gap)
      (hmark : Mark mark isNullable) (hbrackets : Brackets brackets rank) :
      Derives (lead ++ (name ++ (gap ++ (mark ++ brackets))))
        ⟨String.ofList name, [], rank, isNullable⟩
  | generic {lead name gap gap' mark brackets : List Char}
      {arguments : List (List Char × TypeExpr)} {rank : Nat} {isNullable : Bool}
      (hlead : Spaces lead) (hname : IsName name) (hgap : Spaces gap) (hne : arguments ≠ [])
      (harguments : ∀ argument ∈ arguments, Derives argument.1 argument.2) (hgap' : Spaces gap')
      (hmark : Mark mark isNullable) (hbrackets : Brackets brackets rank) :
      Derives (lead ++ (name ++ (gap ++ '<' :: ([','].intercalate (arguments.map Prod.fst) ++
          '>' :: (gap' ++ (mark ++ brackets))))))
        ⟨String.ofList name, arguments.map Prod.snd, rank, isNullable⟩

theorem Derives.allNames {text : List Char} {type : TypeExpr} (h : Derives text type) :
    AllNames IsName type := by
  induction h with
  | plain _ hname _ _ _ => exact .intro (by rwa [String.toList_ofList]) (by simp)
  | generic _ hname _ _ _ _ _ _ ih =>
      refine .intro (by rwa [String.toList_ofList]) fun argument hmem => ?_
      obtain ⟨pair, hpair, rfl⟩ := List.mem_map.mp hmem
      exact ih pair hpair

/-! ### What the reader accepts is derived -/

theorem exists_of_bind_eq_ok {ε α β : Type} {read : Except ε α} {next : α → Except ε β} {result : β}
    (h : (read >>= next) = .ok result) : ∃ value, read = .ok value ∧ next value = .ok result := by
  cases read with
  | error fault => exact absurd h (by simp [bind, Except.bind])
  | ok value => exact ⟨value, rfl, h⟩

theorem takeWhile_spaces (text : List Char) : Spaces (text.takeWhile isSpace) :=
  fun _ hc => List.mem_takeWhile_imp hc

theorem exists_inside_of_closeBracket {opening offset : Nat} {text : List Char} {rest : Located}
    (h : closeBracket opening offset text = .ok rest) :
    ∃ inside, text = inside ++ ']' :: rest.chars ∧ ∀ c ∈ inside, c = ',' ∨ isSpace c = true := by
  induction text generalizing offset with
  | nil => simp [closeBracket] at h
  | cons c text ih =>
      rw [closeBracket] at h
      split at h
      · next hc =>
          obtain rfl := by simpa using h
          exact ⟨[], by simp [hc], by simp⟩
      · split at h
        · next hc =>
            obtain ⟨inside, rfl, hinside⟩ := ih h
            refine ⟨c :: inside, rfl, fun d hd => ?_⟩
            rcases List.mem_cons.mp hd with rfl | hd
            · simpa using hc
            · exact hinside d hd
        · simp at h

theorem brackets_of_readBrackets {text rest : Located} {rank : Nat}
    (h : readBrackets text = .ok (rank, rest)) (hrest : rest.chars = []) :
    Brackets text.chars rank := by
  induction hlength : text.chars.length using Nat.strongRecOn generalizing text rank with
  | ind length ih =>
      subst hlength
      rw [readBrackets] at h
      split at h
      · next inside hinside =>
          split at h
          · simp at h
          · next after hclose =>
              have hshorter := length_lt_of_closeBracket hclose
              have hskip := after.length_skip_le isSpace
              obtain ⟨front, rfl, hfront⟩ := exists_inside_of_closeBracket hclose
              obtain ⟨⟨rank', rest'⟩, hmore, hsum⟩ := exists_of_bind_eq_ok h
              obtain ⟨rfl, rfl⟩ : rank' + 1 = rank ∧ rest' = rest := by
                simpa [pure, Except.pure] using hsum
              have hlater : Brackets (after.chars.dropWhile isSpace) rank' := by
                refine ih _ ?_ hmore rfl
                rw [hinside, List.length_cons]
                omega
              have htext := Brackets.cons hfront (takeWhile_spaces after.chars) hlater
              rw [List.takeWhile_append_dropWhile] at htext
              rwa [hinside]
      · obtain ⟨rfl, rfl⟩ : 0 = rank ∧ text = rest := by simpa using h
        rw [hrest]
        exact .nil

theorem exists_mark_of_readMark {text rest : Located} {isNullable : Bool}
    (h : readMark text = (isNullable, rest)) :
    ∃ mark, text.chars = mark ++ rest.chars ∧ Mark mark isNullable := by
  unfold readMark at h
  split at h
  · next after hafter =>
      obtain ⟨rfl, rfl⟩ := by simpa using h
      refine ⟨'?' :: after.takeWhile isSpace, ?_, .present (takeWhile_spaces after)⟩
      rw [hafter, List.cons_append]
      exact congrArg _ List.takeWhile_append_dropWhile.symm
  · obtain ⟨rfl, rfl⟩ := by simpa using h
    exact ⟨[], rfl, .absent⟩

theorem exists_of_readSuffixes {name : String} {arguments : List TypeExpr} {text : Located}
    {type : TypeExpr} (h : readSuffixes name arguments text = .ok type) :
    ∃ gap mark brackets rank isNullable, text.chars = gap ++ (mark ++ brackets) ∧ Spaces gap ∧
      Mark mark isNullable ∧ Brackets brackets rank ∧
      type = ⟨name, arguments, rank, isNullable⟩ := by
  rw [readSuffixes] at h
  rcases hmarked : readMark (text.skip isSpace) with ⟨isNullable, after⟩
  obtain ⟨mark, hchars, hmark⟩ := exists_mark_of_readMark hmarked
  rw [hmarked] at h
  obtain ⟨⟨rank, rest⟩, hread, hend⟩ := exists_of_bind_eq_ok h
  dsimp only at hend
  split at hend
  · next hrest =>
      obtain rfl := Except.ok.inj hend
      refine ⟨text.chars.takeWhile isSpace, mark, after.chars, rank, isNullable, ?_,
        takeWhile_spaces _, hmark, brackets_of_readBrackets hread hrest, rfl⟩
      rw [← hchars]
      exact List.takeWhile_append_dropWhile.symm
  · simp [throw, throwThe, MonadExceptOf.throw] at hend

theorem forall₂_of_readArguments {offset : Nat} {pieces : List (List Char)}
    {types : List TypeExpr} (h : readArguments offset pieces = .ok types)
    (hpieces : ∀ piece ∈ pieces, ∀ offset type, readType ⟨offset, piece⟩ = .ok type →
      Derives piece type) :
    List.Forall₂ Derives pieces types := by
  induction pieces generalizing offset types with
  | nil =>
      rw [readArguments] at h
      obtain rfl := Except.ok.inj h
      exact .nil
  | cons piece pieces ih =>
      rw [readArguments] at h
      split at h
      · simp at h
      · obtain ⟨type, hread, hmore⟩ := exists_of_bind_eq_ok h
        obtain ⟨others, hothers, hlist⟩ := exists_of_bind_eq_ok hmore
        obtain rfl := Except.ok.inj hlist
        refine .cons (hpieces piece List.mem_cons_self offset type hread) (ih hothers ?_)
        exact fun other hmem => hpieces other (List.mem_cons_of_mem piece hmem)

theorem intercalate_splitArguments (depth : Int) (text : List Char) :
    [','].intercalate ((splitArguments depth text).1 :: (splitArguments depth text).2) = text := by
  induction text generalizing depth with
  | nil => rfl
  | cons c rest ih =>
      rw [splitArguments]
      split
      · next hc => simp [List.intercalate_cons_cons, ih, hc.1]
      · have hrest := ih (depth + nesting c)
        cases hmore : (splitArguments (depth + nesting c) rest).2 with
        | nil => simpa [hmore] using hrest
        | cons piece pieces => simpa [hmore, List.intercalate_cons_cons] using hrest

theorem intercalate_argumentTexts (text : List Char) :
    [','].intercalate (argumentTexts text) = text :=
  intercalate_splitArguments 0 text

theorem length_lt_of_mem_pieces {piece : List Char} {pieces : List (List Char)}
    (h : piece ∈ pieces) : piece.length < piecesSize pieces := by
  induction pieces with
  | nil => simp at h
  | cons other pieces ih =>
      rw [piecesSize, List.foldr_cons, ← piecesSize]
      rcases List.mem_cons.mp h with rfl | hmem
      · omega
      · have := ih hmem
        omega

/-- A text falls into white space, a name, white space, and what comes after these. -/
theorem chars_eq_append (text : Located) :
    text.chars = text.chars.takeWhile isSpace ++
      ((text.skip isSpace).chars.takeWhile isNameChar ++
        (((text.skip isSpace).skip isNameChar).chars.takeWhile isSpace ++
          (((text.skip isSpace).skip isNameChar).skip isSpace).chars)) := by
  simp only [Located.skip, List.takeWhile_append_dropWhile]

/-- The parts in which a text is read. -/
theorem exists_of_readType {text : Located} {type : TypeExpr} (h : readType text = .ok type) :
    ∃ (lead name gap : List Char) (rest : Located),
      text.chars = lead ++ (name ++ (gap ++ rest.chars)) ∧ Spaces lead ∧ IsName name ∧ Spaces gap ∧
        (readSuffixes (String.ofList name) [] rest = .ok type ∨
          ∃ inside after offset arguments, rest.chars = '<' :: (inside ++ '>' :: after.chars) ∧
            readArguments offset (argumentTexts inside) = .ok arguments ∧
              readSuffixes (String.ofList name) arguments after = .ok type) := by
  have hchars := chars_eq_append text
  have hall : ∀ c ∈ (text.skip isSpace).chars.takeWhile isNameChar, isNameChar c = true :=
    fun c hc => List.mem_takeWhile_imp hc
  rw [readType] at h
  split at h
  · simp at h
  · next hne =>
      refine ⟨_, _, _, _, hchars, takeWhile_spaces _, ⟨by simpa using hne, hall⟩,
        takeWhile_spaces _, ?_⟩
      split at h
      · next generic hgeneric =>
          split at h
          · simp at h
          · next inside after hclose =>
              obtain ⟨arguments, hread, hsuffixes⟩ := exists_of_bind_eq_ok h
              refine .inr ⟨inside, _, _, arguments, ?_, hread, hsuffixes⟩
              rw [hgeneric, eq_append_of_closeAngle hclose]
      · exact .inl h

theorem derives_of_readType {text : Located} {type : TypeExpr} (h : readType text = .ok type) :
    Derives text.chars type := by
  induction hlength : text.chars.length using Nat.strongRecOn generalizing text type with
  | ind length ih =>
      subst hlength
      obtain ⟨lead, name, gap, rest, hchars, hlead, hname, hgap, hplain | hgeneric⟩ :=
        exists_of_readType h
      · obtain ⟨gap', mark, brackets, rank, isNullable, hrest, hgap', hmark, hbrackets, rfl⟩ :=
          exists_of_readSuffixes hplain
        have hderives := Derives.plain hlead hname (hgap.append hgap') hmark hbrackets
        rwa [List.append_assoc, ← hrest, ← hchars] at hderives
      · obtain ⟨inside, after, offset, arguments, hrest, hread, hsuffixes⟩ := hgeneric
        obtain ⟨gap', mark, brackets, rank, isNullable, hafter, hgap', hmark, hbrackets, rfl⟩ :=
          exists_of_readSuffixes hsuffixes
        have hforall : List.Forall₂ Derives (argumentTexts inside) arguments := by
          refine forall₂_of_readArguments hread fun piece hmem offset type hpiece => ?_
          have hshorter := length_lt_of_mem_pieces hmem
          refine ih piece.length ?_ hpiece rfl
          rw [piecesSize_argumentTexts] at hshorter
          simp only [hchars, hrest, List.length_append, List.length_cons]
          omega
        obtain ⟨hlength, hzip⟩ := List.forall₂_iff_zip.mp hforall
        have hfst := List.map_fst_zip hlength.le
        have hsnd := List.map_snd_zip hlength.ge
        have hne : (argumentTexts inside).zip arguments ≠ [] := by
          intro hnil
          rw [hnil] at hfst
          exact List.cons_ne_nil _ _ hfst.symm
        have hderives := Derives.generic hlead hname hgap hne (fun _ hmem => hzip hmem) hgap' hmark
          hbrackets
        rwa [hfst, hsnd, intercalate_argumentTexts, ← hafter, ← hrest, ← hchars] at hderives

/-! ### Derived text is nested -/

/-- White space and the characters of a name are no brackets or commas. -/
theorem not_mem_marks {c : Char} (h : isSpace c = true ∨ isNameChar c = true) :
    c ∉ ['<', '>', ',', '[', ']'] := by
  intro hmem
  have hmarks : ∀ mark ∈ ['<', '>', ',', '[', ']'],
      isSpace mark = false ∧ isNameChar mark = false :=
    List.forall_iff_forall_mem.mp (by decide)
  simp [hmarks c hmem] at h

theorem Spaces.nested {text : List Char} (h : Spaces text) : Nested false text :=
  .of_plain fun c hc => not_mem_marks (.inl (h c hc))

theorem IsName.nested {name : List Char} (h : IsName name) : Nested false name :=
  .of_plain fun c hc => not_mem_marks (.inr (h.2 c hc))

theorem Mark.nested {text : List Char} {isNullable : Bool} (h : Mark text isNullable) :
    Nested false text := by
  cases h with
  | absent => exact .nil
  | present htrail => exact .plain (by decide) htrail.nested

theorem Brackets.nested {text : List Char} {rank : Nat} (h : Brackets text rank) :
    Nested false text := by
  induction h with
  | nil => exact .nil
  | cons hinside htrail _ ih =>
      refine .brackets (.of_plain_or_comma fun c hc => ?_) (htrail.nested.append ih)
      exact (hinside c hc).imp_right fun hspace => not_mem_marks (.inl hspace)

theorem Derives.nested {text : List Char} {type : TypeExpr} (h : Derives text type) :
    Nested false text := by
  induction h with
  | plain hlead hname hgap hmark hbrackets =>
      exact hlead.nested.append (hname.nested.append (hgap.nested.append
        (hmark.nested.append hbrackets.nested)))
  | @generic lead name gap gap' mark brackets arguments rank isNullable hlead hname hgap _ _ hgap'
      hmark hbrackets ih =>
      have hinside : Nested true ([','].intercalate (arguments.map Prod.fst)) := by
        apply Nested.intercalate
        rw [List.forall_mem_map]
        exact ih
      exact hlead.nested.append (hname.nested.append (hgap.nested.append (.angles hinside
        (hgap'.nested.append (hmark.nested.append hbrackets.nested)))))

/-! ### What is derived the reader accepts -/

/-- The marks behind a type are neither white space nor part of a name, and they open no arguments. -/
theorem class_of_mem_marks {c : Char} (hc : c ∈ ['?', '[']) :
    isSpace c = false ∧ isNameChar c = false ∧ isAsciiWord c = false ∧ c ≠ '<' := by
  have hmarks : ∀ mark ∈ ['?', '['], isSpace mark = false ∧ isNameChar mark = false ∧
      isAsciiWord mark = false ∧ mark ≠ '<' :=
    List.forall_iff_forall_mem.mp (by decide)
  exact hmarks c hc

theorem Brackets.eq_nil_or_cons {text : List Char} {rank : Nat} (h : Brackets text rank) :
    text = [] ∨ ∃ rest, text = '[' :: rest := by
  cases h with
  | nil => exact .inl rfl
  | cons => exact .inr ⟨_, rfl⟩

theorem Mark.eq_nil_or_cons {mark brackets : List Char} {rank : Nat} {isNullable : Bool}
    (hmark : Mark mark isNullable) (hbrackets : Brackets brackets rank) :
    mark ++ brackets = [] ∨ ∃ c ∈ ['?', '['], ∃ rest, mark ++ brackets = c :: rest := by
  cases hmark with
  | present => exact .inr ⟨'?', by simp, _, rfl⟩
  | absent =>
      rcases hbrackets.eq_nil_or_cons with rfl | ⟨rest, rfl⟩
      · exact .inl rfl
      · exact .inr ⟨'[', by simp, rest, rfl⟩

theorem exists_skip_append {p : Char → Bool} {front rest : List Char}
    (hfront : ∀ c ∈ front, p c = true) (hrest : rest.head?.any p = false) (offset : Nat) :
    ∃ stop, Located.skip p ⟨offset, front ++ rest⟩ = ⟨stop, rest⟩ := by
  refine ⟨offset + byteLength front, ?_⟩
  simp only [Located.skip, takeWhile_append_of_boundary hfront hrest,
    dropWhile_append_of_boundary hfront hrest]

theorem exists_closeBracket_eq_ok {inside : List Char}
    (h : ∀ c ∈ inside, c = ',' ∨ isSpace c = true) (opening offset : Nat) (rest : List Char) :
    ∃ stop, closeBracket opening offset (inside ++ ']' :: rest) = .ok ⟨stop, rest⟩ := by
  induction inside generalizing offset with
  | nil => exact ⟨offset + 1, by simp [closeBracket]⟩
  | cons c inside ih =>
      obtain ⟨stop, hstop⟩ := ih (fun d hd => h d (List.mem_cons_of_mem c hd)) (offset + c.utf8Size)
      have hc := h c List.mem_cons_self
      have hne : c ≠ ']' := by
        rintro rfl
        exact absurd hc (by decide)
      refine ⟨stop, ?_⟩
      rw [List.cons_append, closeBracket, if_neg hne, if_pos (by simpa using hc), hstop]

theorem Brackets.exists_readBrackets_eq_ok {text : List Char} {rank : Nat} (h : Brackets text rank)
    (offset : Nat) : ∃ stop, readBrackets ⟨offset, text⟩ = .ok (rank, ⟨stop, []⟩) := by
  induction h generalizing offset with
  | nil => exact ⟨offset, by rw [readBrackets]⟩
  | @cons inside trail text rank hinside htrail htext ih =>
      obtain ⟨stop, hclose⟩ :=
        exists_closeBracket_eq_ok hinside offset (offset + 1) (trail ++ text)
      have htext' : text.head?.any isSpace = false := by
        rcases htext.eq_nil_or_cons with rfl | ⟨rest, rfl⟩ <;> rfl
      obtain ⟨next, hnext⟩ := exists_skip_append htrail htext' stop
      obtain ⟨stop', hmore⟩ := ih next
      refine ⟨stop', ?_⟩
      rw [readBrackets]
      simp only [List.cons_append]
      split
      · next hfault => simp [hclose] at hfault
      · next rest hrest =>
          obtain rfl := Except.ok.inj (hclose.symm.trans hrest)
          rw [hnext, hmore]
          rfl

theorem isSpace_head?_suffix {mark brackets : List Char} {rank : Nat} {isNullable : Bool}
    (hmark : Mark mark isNullable) (hbrackets : Brackets brackets rank) :
    (mark ++ brackets).head?.any isSpace = false := by
  rcases hmark.eq_nil_or_cons hbrackets with hnil | ⟨c, hc, rest, hcons⟩
  · rw [hnil]
    rfl
  · rw [hcons]
    exact (class_of_mem_marks hc).1

theorem readSuffixes_eq_ok (name : String) (arguments : List TypeExpr)
    {gap mark brackets : List Char} {rank : Nat} {isNullable : Bool} (hgap : Spaces gap)
    (hmark : Mark mark isNullable) (hbrackets : Brackets brackets rank) (offset : Nat) :
    readSuffixes name arguments ⟨offset, gap ++ (mark ++ brackets)⟩ =
      .ok ⟨name, arguments, rank, isNullable⟩ := by
  obtain ⟨start, hskip⟩ := exists_skip_append hgap (isSpace_head?_suffix hmark hbrackets) offset
  have hmarked : ∃ stop, readMark ⟨start, mark ++ brackets⟩ = (isNullable, ⟨stop, brackets⟩) := by
    cases hmark with
    | absent =>
        rcases hbrackets.eq_nil_or_cons with rfl | ⟨rest, rfl⟩
        · exact ⟨start, rfl⟩
        · exact ⟨start, rfl⟩
    | @present trail htrail =>
        obtain ⟨stop, htext⟩ :=
          exists_skip_append htrail (isSpace_head?_suffix .absent hbrackets) (start + 1)
        exact ⟨stop, congrArg (Prod.mk true) htext⟩
  obtain ⟨stop, hmarked⟩ := hmarked
  obtain ⟨stop', hread⟩ := hbrackets.exists_readBrackets_eq_ok stop
  rw [readSuffixes, hskip, hmarked]
  simp only [hread]
  rfl

/-- A name with white space around it, and the text where its arguments or suffixes would begin. -/
structure NameAt (text : Located) (name : List Char) (rest : Located) : Prop where
  name_eq : (text.skip isSpace).chars.takeWhile isNameChar = name
  rest_eq : ((text.skip isSpace).skip isNameChar).skip isSpace = rest

/-- What follows a name and white space is neither. -/
theorem exists_nameAt {lead name gap rest : List Char} (hlead : Spaces lead) (hname : IsName name)
    (hgap : Spaces gap) (hspace : rest.head?.any isSpace = false)
    (hrest : rest.head?.any isNameChar = false) (offset : Nat) :
    ∃ stop, NameAt ⟨offset, lead ++ (name ++ (gap ++ rest))⟩ name ⟨stop, rest⟩ := by
  obtain ⟨hne, hall⟩ := hname
  have hfirst : (name ++ (gap ++ rest)).head?.any isSpace = false := by
    obtain ⟨c, more, rfl⟩ := List.exists_cons_of_ne_nil hne
    change isSpace c = false
    rw [Bool.eq_false_iff]
    intro hc
    simp [isNameChar_eq_false_of_isSpace hc] at hall
  have hend : (gap ++ rest).head?.any isNameChar = false := by
    cases gap with
    | nil => exact hrest
    | cons c gap => exact isNameChar_eq_false_of_isSpace (hgap c List.mem_cons_self)
  obtain ⟨start, hstart⟩ := exists_skip_append hlead hfirst offset
  obtain ⟨stop, hstop⟩ := exists_skip_append hall hend start
  obtain ⟨stop', hstop'⟩ := exists_skip_append hgap hspace stop
  refine ⟨stop', ?_, ?_⟩
  · rw [hstart]
    exact takeWhile_append_of_boundary hall hend
  · rw [hstart, hstop, hstop']

section NameAt

variable {text rest : Located} {name : List Char} (h : NameAt text name rest) (hname : IsName name)

include h hname

theorem readType_of_plain (hplain : rest.chars.head? ≠ some '<') :
    readType text = readSuffixes (String.ofList name) [] rest := by
  rw [readType]
  simp only [h.name_eq, h.rest_eq, List.isEmpty_iff, hname.1, if_false]
  split
  · next generic hgeneric =>
      rw [h.rest_eq] at hgeneric
      simp [hgeneric] at hplain
  · rfl

theorem readType_of_angle {generic inside after : List Char}
    (hgeneric : rest.chars = '<' :: generic)
    (hclose : closeAngle 0 generic = some (inside, after)) :
    readType text =
      (readArguments (rest.offset + 1) (argumentTexts inside)).bind fun arguments =>
        readSuffixes (String.ofList name) arguments
          ⟨rest.offset + 1 + byteLength inside + 1, after⟩ := by
  rw [readType]
  simp only [h.name_eq, h.rest_eq, List.isEmpty_iff, hname.1, if_false]
  split
  · next generic' hgeneric' =>
      rw [h.rest_eq] at hgeneric'
      obtain rfl : generic' = generic := by simpa using hgeneric'.symm.trans hgeneric
      split
      · next hnone => simp [hclose] at hnone
      · next hsome =>
          obtain ⟨rfl, rfl⟩ := by simpa using hclose.symm.trans hsome
          rfl
  · next hother =>
      rw [h.rest_eq] at hother
      exact absurd hgeneric (hother generic)

end NameAt

theorem Derives.exists_not_isSpace {text : List Char} {type : TypeExpr} (h : Derives text type) :
    ∃ c ∈ text, isSpace c = false := by
  have hname : ∀ {name : List Char}, IsName name → ∃ c ∈ name, isSpace c = false := by
    intro name hname
    obtain ⟨c, rest, rfl⟩ := List.exists_cons_of_ne_nil hname.1
    refine ⟨c, List.mem_cons_self, ?_⟩
    rw [Bool.eq_false_iff]
    intro hspace
    have hc := hname.2 c List.mem_cons_self
    simp [isNameChar_eq_false_of_isSpace hspace] at hc
  cases h with
  | plain _ hisName =>
      obtain ⟨c, hc, hspace⟩ := hname hisName
      exact ⟨c, by simp [hc], hspace⟩
  | generic _ hisName =>
      obtain ⟨c, hc, hspace⟩ := hname hisName
      exact ⟨c, by simp [hc], hspace⟩

theorem readArguments_eq_ok {arguments : List (List Char × TypeExpr)} (offset : Nat)
    (h : ∀ argument ∈ arguments, (∃ c ∈ argument.1, isSpace c = false) ∧
      ∀ offset, readType ⟨offset, argument.1⟩ = .ok argument.2) :
    readArguments offset (arguments.map Prod.fst) = .ok (arguments.map Prod.snd) := by
  induction arguments generalizing offset with
  | nil => rw [List.map_nil, readArguments, List.map_nil]
  | cons argument arguments ih =>
      obtain ⟨hspace, hread⟩ := h argument List.mem_cons_self
      have hmore := ih (offset + byteLength argument.1 + 1) fun other hmem =>
        h other (List.mem_cons_of_mem argument hmem)
      have hpiece : argument.1.all isSpace = false := by
        simpa using hspace
      rw [List.map_cons, readArguments]
      simp only [hpiece, Bool.false_eq_true, if_false, hread, hmore]
      rfl

theorem Derives.readType_eq_ok {text : List Char} {type : TypeExpr} (h : Derives text type)
    (offset : Nat) : readType ⟨offset, text⟩ = .ok type := by
  induction h generalizing offset with
  | @plain lead name gap mark brackets rank isNullable hlead hname hgap hmark hbrackets =>
      have hspace := isSpace_head?_suffix hmark hbrackets
      have hrest : (mark ++ brackets).head?.any isNameChar = false ∧
          (mark ++ brackets).head? ≠ some '<' := by
        rcases hmark.eq_nil_or_cons hbrackets with hnil | ⟨c, hc, rest, hcons⟩
        · rw [hnil]
          exact ⟨rfl, by simp⟩
        · obtain ⟨_, hnameChar, _, hangle⟩ := class_of_mem_marks hc
          rw [hcons]
          exact ⟨hnameChar, by simpa using hangle⟩
      obtain ⟨stop, hat⟩ := exists_nameAt hlead hname hgap hspace hrest.1 offset
      rw [readType_of_plain hat hname hrest.2]
      have hread := readSuffixes_eq_ok (String.ofList name) [] spaces_nil hmark hbrackets stop
      exact hread
  | @generic lead name gap gap' mark brackets arguments rank isNullable hlead hname hgap hne
      harguments hgap' hmark hbrackets ih =>
      have hpieces : ∀ piece ∈ arguments.map Prod.fst, Nested false piece := by
        rw [List.forall_mem_map]
        exact fun argument hmem => (harguments argument hmem).nested
      have hclose : closeAngle 0 ([','].intercalate (arguments.map Prod.fst) ++
          '>' :: (gap' ++ (mark ++ brackets))) =
            some ([','].intercalate (arguments.map Prod.fst), gap' ++ (mark ++ brackets)) := by
        rw [(Nested.intercalate hpieces).closeAngle_append, closeAngle]
        simp
      let angle := '<' :: ([','].intercalate (arguments.map Prod.fst) ++
        '>' :: (gap' ++ (mark ++ brackets)))
      have hspace : angle.head?.any isSpace = false := rfl
      obtain ⟨stop, hat⟩ := exists_nameAt hlead hname hgap hspace rfl offset
      rw [readType_of_angle hat hname rfl hclose,
        argumentTexts_intercalate (by simpa using hne) hpieces, readArguments_eq_ok]
      · exact readSuffixes_eq_ok _ _ hgap' hmark hbrackets _
      · exact fun argument hmem => ⟨(harguments argument hmem).exists_not_isSpace, ih argument hmem⟩

/-! ### The language of the reader -/

theorem parse_eq_ok_iff {source : String} {type : TypeExpr} :
    parse source = .ok type ↔ Derives source.toList type := by
  rw [parse]
  constructor
  · intro h
    cases hread : readType (.ofString source) with
    | error fault => simp [hread, Except.mapError] at h
    | ok type' =>
        rw [hread] at h
        obtain rfl := Except.ok.inj h
        exact derives_of_readType hread
  · intro h
    have hread : readType (.ofString source) = .ok type := h.readType_eq_ok 0
    rw [hread, Except.mapError]

theorem parse_eq_ok_of_toOption {source : String} {type : TypeExpr}
    (h : (parse source).toOption = some type) : parse source = .ok type := by
  cases hparse : parse source with
  | error fault => simp [hparse, Except.toOption] at h
  | ok type' =>
      rw [hparse] at h
      exact congrArg Except.ok (Option.some.inj h)

/-- **The reader is exact.** It accepts the texts of the grammar with their trees, so that every name
in an accepted tree is a proper one, and it refuses with an error whatever the grammar does not
derive. -/
theorem parse_exact (source : String) :
    (∀ type, parse source = .ok type ↔ Derives source.toList type) ∧
      (∀ type, parse source = .ok type → AllNames IsName type) ∧
      ((∃ error, parse source = .error error) ↔ ∀ type, ¬Derives source.toList type) := by
  refine ⟨fun type => parse_eq_ok_iff, fun type h => (parse_eq_ok_iff.mp h).allNames, ?_⟩
  constructor
  · rintro ⟨error, herror⟩ type hderives
    have hok := parse_eq_ok_iff.mpr hderives
    simp [herror] at hok
  · intro hnone
    cases hparse : parse source with
    | error error => exact ⟨error, rfl⟩
    | ok type => exact absurd (parse_eq_ok_iff.mp hparse) (hnone type)

end TypeScribe.TypeExpr
