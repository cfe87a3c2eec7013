import TypeScribe.Proofs.Text.Located
import TypeScribe.Proofs.TypeExpr.Grammar

/-!
# What the span of a fault shows

A fault arises in a piece of the expression that was cut out of its brackets, yet its span points into
the whole expression and covers there what the reason names. Each reader keeps track of where its text
stands in the whole, so what the readers of the pieces show is shown by the reader of the whole. Only
the whole text can run out where a name is expected, since a piece of white space is a fault of its own.
-/

namespace TypeScribe

namespace TypeExpr

open Text

/-- The span covers what the fault names. An empty argument stands between the marks that open and
close it. -/
def Fault.Shows (whole : List Char) (span : Span) : Fault → Prop
  | .nameExpected none => span = ⟨byteLength whole, 0⟩
  | .nameExpected (some c) | .trailing c | .insideBrackets c => span.Holds whole [c]
  | .unclosedAngle => span.Holds whole ['<']
  | .unclosedBracket => span.Holds whole ['[']
  | .emptyArgument => ∃ front opener inside closer after,
      whole = (front ++ [opener]) ++ (inside ++ closer :: after) ∧
        span = ⟨byteLength (front ++ [opener]), byteLength inside⟩ ∧ Spaces inside ∧
        opener ∈ ['<', ','] ∧ closer ∈ [',', '>']

/-- A fault shows in `whole` what it names, and a result satisfies `post`. -/
def FaultsShow {α : Type} (whole : List Char) (post : α → Prop) : Except (Fault × Span) α → Prop
  | .error (fault, span) => fault.Shows whole span
  | .ok result => post result

section FaultsShow

variable {α β : Type} {whole : List Char} {post : α → Prop} {post' : β → Prop}
  {read : Except (Fault × Span) α} {next : α → Except (Fault × Span) β}

theorem FaultsShow.bind (h : FaultsShow whole post read)
    (hnext : ∀ value, post value → FaultsShow whole post' (next value)) :
    FaultsShow whole post' (read >>= next) := by
  cases read with
  | error fault => exact h
  | ok value => exact hnext value h

end FaultsShow

/-! ### The readers -/

section Readers

variable {whole chars after : List Char} {text : Located} {offset opening : Nat}

theorem faultsShow_closeBracket (hopen : Span.Holds ⟨opening, 1⟩ whole ['['])
    (h : Located.StandsIn ⟨offset, chars⟩ whole after) :
    FaultsShow whole (fun rest => rest.StandsIn whole after)
      (closeBracket opening offset chars) := by
  induction chars generalizing offset with
  | nil => exact hopen
  | cons c chars ih =>
      rw [closeBracket]
      split
      · next hc =>
          subst hc
          exact h.drop_cons
      · split
        · exact ih h.drop_cons
        · exact h.holds_cons

theorem faultsShow_readBrackets (h : text.StandsIn whole after) :
    FaultsShow whole (fun brackets => brackets.2.StandsIn whole after) (readBrackets text) := by
  induction hlength : text.chars.length using Nat.strongRecOn generalizing text with
  | ind length ih =>
      subst hlength
      rw [readBrackets]
      split
      · next inside hinside =>
          have hcons : Located.StandsIn ⟨text.offset, '[' :: inside⟩ whole after := hinside ▸ h
          have hread : FaultsShow whole (fun rest => rest.StandsIn whole after)
              (closeBracket text.offset (text.offset + 1) inside) :=
            faultsShow_closeBracket hcons.holds_cons hcons.drop_cons
          split
          · next fault hclose =>
              rw [hclose] at hread
              exact hread
          · next rest hclose =>
              rw [hclose] at hread
              have hshorter := length_lt_of_closeBracket hclose
              have hskip := rest.length_skip_le isSpace
              refine (ih _ ?_ (hread.skip isSpace) rfl).bind fun result hresult => hresult
              rw [hinside, List.length_cons]
              omega
      · exact h

theorem standsIn_readMark (h : text.StandsIn whole after) :
    (readMark text).2.StandsIn whole after := by
  unfold readMark
  split
  · next rest hrest =>
      have hcons : Located.StandsIn ⟨text.offset, '?' :: rest⟩ whole after := hrest ▸ h
      exact hcons.drop_cons.skip isSpace
  · exact h

theorem faultsShow_readSuffixes (name : String) (arguments : List TypeExpr)
    (h : text.StandsIn whole after) :
    FaultsShow whole (fun _ => True) (readSuffixes name arguments text) := by
  have hmark := standsIn_readMark (h.skip isSpace)
  rw [readSuffixes]
  refine (faultsShow_readBrackets hmark).bind fun brackets hrest => ?_
  obtain ⟨rank, rest⟩ := brackets
  dsimp only
  split
  · trivial
  · next c more hc => exact hrest.holds_headSpan hc

theorem faultsShow_readArguments_nil (offset : Nat) :
    FaultsShow whole (fun _ => True) (readArguments offset []) := by
  rw [readArguments]
  trivial

section Arguments

variable {front piece more : List Char} {opener closer : Char} {pieces : List (List Char)}

/-- The mark behind an argument closes it and opens the next one. -/
theorem faultsShow_readArguments_cons
    (hwhole : whole = (front ++ [opener]) ++ (piece ++ closer :: more))
    (hopener : opener ∈ ['<', ',']) (hcloser : closer ∈ [',', '>'])
    (hpiece : ¬Spaces piece → ∀ offset after, Located.StandsIn ⟨offset, piece⟩ whole after →
      FaultsShow whole (fun _ => True) (readType ⟨offset, piece⟩))
    (hlater : FaultsShow whole (fun _ => True)
      (readArguments (byteLength (front ++ [opener]) + byteLength piece + 1) pieces)) :
    FaultsShow whole (fun _ => True)
      (readArguments (byteLength (front ++ [opener])) (piece :: pieces)) := by
  rw [readArguments]
  split
  · next hspaces =>
      exact ⟨front, opener, piece, closer, more, hwhole, rfl, by simpa [Spaces] using hspaces,
        hopener, hcloser⟩
  · next hspaces =>
      have hread := hpiece (by simpa [Spaces] using hspaces) _ _ ⟨front ++ [opener], hwhole, rfl⟩
      exact hread.bind fun argument _ => hlater.bind fun arguments _ => trivial

theorem faultsShow_readArguments
    (hwhole : whole = (front ++ [opener]) ++ ([','].intercalate pieces ++ '>' :: after))
    (hopener : opener ∈ ['<', ','])
    (hpieces : ∀ piece ∈ pieces, ¬Spaces piece → ∀ offset after,
      Located.StandsIn ⟨offset, piece⟩ whole after →
        FaultsShow whole (fun _ => True) (readType ⟨offset, piece⟩)) :
    FaultsShow whole (fun _ => True) (readArguments (byteLength (front ++ [opener])) pieces) := by
  induction pieces generalizing front opener with
  | nil => exact faultsShow_readArguments_nil _
  | cons piece pieces ih =>
      have hpiece := hpieces piece List.mem_cons_self
      cases pieces with
      | nil =>
          rw [List.intercalate_singleton] at hwhole
          exact faultsShow_readArguments_cons hwhole hopener (by simp) hpiece
            (faultsShow_readArguments_nil _)
      | cons other pieces =>
          have hcomma : whole = (front ++ [opener]) ++
              (piece ++ ',' :: ([','].intercalate (other :: pieces) ++ '>' :: after)) := by
            rw [hwhole, List.intercalate_cons_cons]
            simp
          have hoffset : byteLength ((front ++ [opener] ++ piece) ++ [',']) =
              byteLength (front ++ [opener]) + byteLength piece + 1 := by
            simp only [byteLength_append]
            rfl
          refine faultsShow_readArguments_cons hcomma hopener (by simp) hpiece ?_
          rw [← hoffset]
          refine ih ?_ (by simp) fun piece' hmem => hpieces piece' (List.mem_cons_of_mem _ hmem)
          rw [hcomma]
          simp

end Arguments

theorem shows_nameExpected (h : text.StandsIn whole after) (hend : text.chars = [] → after = []) :
    (Fault.nameExpected text.chars.head?).Shows whole text.headSpan := by
  cases hchars : text.chars with
  | nil =>
      obtain rfl := hend hchars
      exact h.headSpan_eq hchars
  | cons c rest => exact h.holds_headSpan hchars

/-- Only the text that nothing follows may hold no name at all. -/
theorem faultsShow_readType (h : text.StandsIn whole after)
    (hend : Spaces text.chars → after = []) :
    FaultsShow whole (fun _ => True) (readType text) := by
  induction hlength : text.chars.length using Nat.strongRecOn generalizing text after with
  | ind length ih =>
      subst hlength
      have hstart := h.skip isSpace
      have hrest := (hstart.skip isNameChar).skip isSpace
      have hchars := congrArg List.length (chars_eq_append text)
      rw [readType]
      split
      · refine shows_nameExpected hstart fun hnil => hend fun c hc => ?_
        exact List.dropWhile_eq_nil_iff.mp hnil c hc
      · generalize ((text.skip isSpace).skip isNameChar).skip isSpace = rest at hrest hchars ⊢
        split
        · next generic hgeneric =>
            have hangle : Located.StandsIn ⟨rest.offset, '<' :: generic⟩ whole after :=
              hgeneric ▸ hrest
            split
            · exact hangle.holds_cons
            · next inside after' hclose =>
                obtain rfl := eq_append_of_closeAngle hclose
                have hsuffixes : Located.StandsIn
                    ⟨rest.offset + 1 + byteLength inside + 1, after'⟩ whole after :=
                  hangle.drop_cons.drop.drop_cons
                obtain ⟨front, hwhole, hoffset⟩ := hangle
                have harguments : FaultsShow whole (fun _ => True)
                    (readArguments (byteLength (front ++ ['<'])) (argumentTexts inside)) := by
                  have hinside : whole = (front ++ ['<']) ++
                      ([','].intercalate (argumentTexts inside) ++ '>' :: (after' ++ after)) := by
                    rw [intercalate_argumentTexts, hwhole]
                    simp
                  refine faultsShow_readArguments hinside (by simp) ?_
                  intro piece hmem hspaces offset after'' hpiece
                  have hshorter := length_lt_of_mem_pieces hmem
                  rw [piecesSize_argumentTexts] at hshorter
                  refine ih piece.length ?_ hpiece (fun hall => absurd hall hspaces) rfl
                  simp only [hgeneric, List.length_append, List.length_cons] at hchars
                  omega
                rw [byteLength_append, ← hoffset] at harguments
                exact harguments.bind fun arguments _ => faultsShow_readSuffixes _ _ hsuffixes
        · exact faultsShow_readSuffixes _ _ hrest

end Readers

/-! ### The reasons -/

theorem take_quoted (front back : String) (c : Char) {count : Nat}
    (hcount : count ≤ front.toList.length) :
    (front ++ c.toString ++ back).toList.take count = front.toList.take count := by
  rw [String.toList_append, String.toList_append, List.append_assoc,
    List.take_append_of_le_length hcount]

/-- The beginning of a reason tells the kind of the fault. -/
theorem take_reason (fault : Fault) : fault.reason.toList.take 12 =
    match fault with
    | .nameExpected _ => "expected a t".toList
    | .trailing _ => "unexpected t".toList
    | .unclosedAngle => "unclosed '<'".toList
    | .unclosedBracket => "unclosed '['".toList
    | .emptyArgument => "empty generi".toList
    | .insideBrackets _ => "unexpected '".toList := by
  rcases fault with (_ | c) | c | _ | _ | _ | c
  · decide
  · exact take_quoted _ _ c (by decide)
  · exact take_quoted _ _ c (by decide)
  · decide
  · decide
  · decide
  · exact take_quoted _ _ c (by decide)

theorem eq_of_quoted {front back : String} {c d : Char}
    (h : front ++ c.toString ++ back = front ++ d.toString ++ back) : c = d := by
  have htext := congrArg String.toList h
  simpa using htext

theorem reason_nameExpected_ne (c : Char) :
    (Fault.nameExpected none).reason ≠ (Fault.nameExpected (some c)).reason := by
  intro h
  have hbare : "expected a type name".toList.take 21 ≠
      "expected a type name, found '".toList.take 21 := by decide
  have hquoted : (Fault.nameExpected (some c)).reason.toList.take 21 =
      "expected a type name, found '".toList.take 21 := take_quoted _ _ c (by decide)
  rw [← hquoted, ← h] at hbare
  exact hbare rfl

/-- A fault is known from its reason. -/
theorem Fault.reason_injective : Function.Injective Fault.reason := by
  intro fault fault' h
  have hkind := congrArg (fun reason => reason.toList.take 12) h
  simp only [take_reason] at hkind
  cases fault <;> cases fault' <;> simp at hkind
  case nameExpected.nameExpected found found' =>
    rcases found with _ | c <;> rcases found' with _ | d
    · rfl
    · exact absurd h (reason_nameExpected_ne d)
    · exact absurd h.symm (reason_nameExpected_ne c)
    · rw [eq_of_quoted h]
  case trailing.trailing => rw [eq_of_quoted h]
  case insideBrackets.insideBrackets => rw [eq_of_quoted h]
  all_goals rfl

/-! ### The span of an error -/

/-- The error is about `source`, and its span covers what its reason names. -/
structure ParseError.PointsInto (error : ParseError) (source : String) : Prop where
  source_eq : error.source = source
  isBoundary_offset : IsBoundary source.toList error.span.offset
  isBoundary_stop : IsBoundary source.toList error.span.stop
  quoted : ∀ c : Char, error.fault.reason ∈
      ["expected a type name, found '" ++ c.toString ++ "'",
        "unexpected trailing input, found '" ++ c.toString ++ "'",
        "unexpected '" ++ c.toString ++ "' inside array brackets"] →
    slice error.span.offset error.span.stop source.toList = [c] ∧ error.span.length = c.utf8Size
  unclosed : ∀ c ∈ ['<', '['], error.fault.reason = "unclosed '" ++ c.toString ++ "'" →
    slice error.span.offset error.span.stop source.toList = [c] ∧ error.span.length = 1
  empty : error.fault.reason = "empty generic argument" →
    Spaces (slice error.span.offset error.span.stop source.toList) ∧
      (takeBytes error.span.offset source.toList).getLast? ∈ [some '<', some ','] ∧
      (dropBytes error.span.stop source.toList).head? ∈ [some ',', some '>']
  bare : error.fault.reason = "expected a type name" →
    error.span = ⟨byteLength source.toList, 0⟩

section Shows

variable {whole : List Char} {span : Span} {fault : Fault}

theorem Fault.Shows.exists_holds (h : fault.Shows whole span) :
    ∃ piece, span.Holds whole piece := by
  rcases fault with (_ | c) | c | _ | _ | _ | c
  · obtain rfl : span = ⟨byteLength whole, 0⟩ := h
    exact ⟨[], whole, [], by simp, rfl⟩
  · exact ⟨[c], h⟩
  · exact ⟨[c], h⟩
  · exact ⟨['<'], h⟩
  · exact ⟨['['], h⟩
  · obtain ⟨front, opener, inside, closer, after, hwhole, hspan, _⟩ := h
    exact ⟨inside, front ++ [opener], closer :: after, hwhole, hspan⟩
  · exact ⟨[c], h⟩

theorem Fault.Shows.of_reason {fault' : Fault} (h : fault.Shows whole span)
    (hreason : fault.reason = fault'.reason) : fault'.Shows whole span := by
  rwa [← Fault.reason_injective hreason]

theorem Fault.Shows.holds_of_quoted {c : Char} (h : fault.Shows whole span)
    (hreason : fault.reason = (Fault.nameExpected (some c)).reason ∨
      fault.reason = (Fault.trailing c).reason ∨ fault.reason = (Fault.insideBrackets c).reason) :
    span.Holds whole [c] := by
  rcases hreason with hreason | hreason | hreason
  · exact h.of_reason hreason
  · exact h.of_reason hreason
  · exact h.of_reason hreason

theorem Fault.Shows.holds_of_unclosed {c : Char} (h : fault.Shows whole span) (hc : c ∈ ['<', '['])
    (hreason : fault.reason = "unclosed '" ++ c.toString ++ "'") : span.Holds whole [c] := by
  have hangle : "unclosed '" ++ '<'.toString ++ "'" = Fault.unclosedAngle.reason := by decide
  have hbracket : "unclosed '" ++ '['.toString ++ "'" = Fault.unclosedBracket.reason := by decide
  simp only [List.mem_cons, List.not_mem_nil, or_false] at hc
  rcases hc with rfl | rfl
  · exact h.of_reason (hreason.trans hangle)
  · exact h.of_reason (hreason.trans hbracket)

theorem shows_emptyArgument (h : Fault.emptyArgument.Shows whole span) :
    Spaces (slice span.offset span.stop whole) ∧
      (takeBytes span.offset whole).getLast? ∈ [some '<', some ','] ∧
      (dropBytes span.stop whole).head? ∈ [some ',', some '>'] := by
  obtain ⟨front, opener, inside, closer, after, rfl, rfl, hinside, hopener, hcloser⟩ := h
  have hdrop : dropBytes (byteLength (front ++ [opener]) + byteLength inside)
      ((front ++ [opener]) ++ (inside ++ closer :: after)) = closer :: after := by
    rw [← byteLength_append, ← List.append_assoc, dropBytes_append]
  refine ⟨?_, ?_, ?_⟩
  · rw [Span.stop, slice_append]
    exact hinside
  · rw [takeBytes_append]
    simpa using hopener
  · rw [Span.stop, hdrop]
    simpa using hcloser

end Shows

theorem ParseError.pointsInto_of_shows {error : ParseError} {source : String}
    (hsource : error.source = source) (h : error.fault.Shows source.toList error.span) :
    error.PointsInto source := by
  obtain ⟨piece, hpiece⟩ := h.exists_holds
  refine ⟨hsource, hpiece.isBoundary.1, hpiece.isBoundary.2, fun c hreason => ?_,
    fun c hc hreason => ?_, fun hreason => ?_, fun hreason => ?_⟩
  · simp only [List.mem_cons, List.not_mem_nil, or_false] at hreason
    exact (h.holds_of_quoted hreason).slice_eq
  · obtain ⟨hslice, hlength⟩ := (h.holds_of_unclosed hc hreason).slice_eq
    refine ⟨hslice, hlength.trans ?_⟩
    simp only [List.mem_cons, List.not_mem_nil, or_false] at hc
    rcases hc with rfl | rfl <;> rfl
  · have hempty : error.fault.reason = Fault.emptyArgument.reason := hreason
    exact shows_emptyArgument (h.of_reason hempty)
  · have hbare : error.fault.reason = (Fault.nameExpected none).reason := hreason
    exact h.of_reason hbare

/-- **The span of an error covers what its reason names**, byte by byte, wherever in the expression the
fault arises. -/
theorem pointsInto_of_parse_eq_error {source : String} {error : ParseError}
    (h : parse source = .error error) : error.PointsInto source := by
  have hshow : FaultsShow source.toList (fun _ => True) (readType (.ofString source)) :=
    faultsShow_readType (Located.standsIn_ofString source) fun _ => rfl
  rw [parse] at h
  cases hread : readType (.ofString source) with
  | ok type => simp [hread, Except.mapError] at h
  | error fault =>
      rw [hread] at h hshow
      obtain rfl := Except.error.inj h
      exact ParseError.pointsInto_of_shows rfl hshow

theorem pointsInto_of_wide_gap :
    let source := "Größe<é,\u3000>"
    let error : ParseError := ⟨source, .emptyArgument, ⟨11, 3⟩⟩
    parse source = .error error ∧ error.PointsInto source := by
  intro source error
  have herror : parse source = .error error := by decide +kernel
  exact ⟨herror, pointsInto_of_parse_eq_error herror⟩

end TypeExpr

end TypeScribe
