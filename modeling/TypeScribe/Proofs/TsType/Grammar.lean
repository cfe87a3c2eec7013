import Mathlib.Logic.Function.Iterate
import TypeScribe.Proofs.TypeExpr.Grammar
import TypeScribe.TsType.Basic

/-!
# The grammar of written TypeScript types

A union binds least, the brackets of an array bind tighter, and parentheses group without a meaning
of their own. The grammar is unambiguous: if a text begins with a type that what follows does not go
on with, then it begins with one such type only, and that has one meaning.
-/

namespace TypeScribe.TsType

open Text TypeExpr

/-- What a written type says. -/
inductive Meaning where
  | named (name : String)
  | generic (name : String) (arguments : List Meaning)
  | dictionary (key value : Meaning)
  | array (element : Meaning)
  | optional (type : Meaning)

/-- How tightly a written type is bound. -/
inductive Layer where
  | primary
  | arrays
  | union

def bracketPairs (count : Nat) : List Char := (List.replicate count ['[', ']']).flatten

def undefinedParts (count : Nat) : List Char := (List.replicate count " | undefined".toList).flatten

/-- The texts of a layer and what they say. Each argument stands with its text.

* `primary ::= name | name '<' union (', ' union)* '>' | '{ [key: ' union ']: ' union ' }' | '(' union ')'`
* `arrays ::= primary '[]'*`
* `union ::= arrays ' | undefined'*` -/
inductive Reads : Layer → List Char → Meaning → Prop where
  | named {name : List Char} (hname : IsName name) :
      Reads .primary name (.named (String.ofList name))
  | generic {name : List Char} {arguments : List (List Char × Meaning)} (hname : IsName name)
      (hne : arguments ≠ []) (harguments : ∀ argument ∈ arguments, Reads .union argument.1 argument.2) :
      Reads .primary (name ++ '<' :: ([',', ' '].intercalate (arguments.map Prod.fst) ++ ['>']))
        (.generic (String.ofList name) (arguments.map Prod.snd))
  | dictionary {key value : List Char} {keyMeaning valueMeaning : Meaning}
      (hkey : Reads .union key keyMeaning) (hvalue : Reads .union value valueMeaning) :
      Reads .primary ("\x7b [key: ".toList ++ (key ++ ("]: ".toList ++ (value ++ " \x7d".toList))))
        (.dictionary keyMeaning valueMeaning)
  | grouped {text : List Char} {meaning : Meaning} (h : Reads .union text meaning) :
      Reads .primary ('(' :: (text ++ [')'])) meaning
  | arrays {text : List Char} {meaning : Meaning} (count : Nat) (h : Reads .primary text meaning) :
      Reads .arrays (text ++ bracketPairs count) (Meaning.array^[count] meaning)
  | union {text : List Char} {meaning : Meaning} (count : Nat) (h : Reads .arrays text meaning) :
      Reads .union (text ++ undefinedParts count) (Meaning.optional^[count] meaning)

/-- Neither a name nor its arguments go on with `rest`. -/
def EndsPrimary (rest : List Char) : Prop :=
  rest.head?.any (fun c => isNameChar c || c == '<') = false

/-- The text `rest` does not go on with a type of the layer that stands before it. -/
def Ends : Layer → List Char → Prop
  | .primary, rest => EndsPrimary rest
  | .arrays, rest => EndsPrimary rest ∧ ¬['[', ']'] <+: rest
  | .union, rest => (EndsPrimary rest ∧ ¬['[', ']'] <+: rest) ∧ ¬" | undefined".toList <+: rest

/-- A text that begins with `text`, and then does not go on with it, begins with no other type. -/
def ReadOnce (layer : Layer) (text : List Char) (meaning : Meaning) : Prop :=
  ∀ {text' : List Char} {meaning' : Meaning} {rest rest' : List Char},
    Reads layer text' meaning' → Ends layer rest → Ends layer rest' → text ++ rest = text' ++ rest' →
      text = text' ∧ meaning = meaning'

/-! ### Where types end -/

theorem ends_nil (layer : Layer) : Ends layer [] := by
  have hprimary : EndsPrimary [] := rfl
  have harrays : Ends .arrays [] := ⟨hprimary, by decide⟩
  cases layer with
  | primary => exact hprimary
  | arrays => exact harrays
  | union => exact ⟨harrays, by decide⟩

/-- The characters that follow a type within another one. -/
theorem ends_closer {c : Char} (hc : c ∈ [',', '>', ']', ')']) (rest : List Char) :
    Ends .union (c :: rest) := by
  have hclosers : ∀ closer ∈ [',', '>', ']', ')'], (isNameChar closer || closer == '<') = false ∧
      closer ≠ '[' ∧ closer ≠ ' ' :=
    List.forall_iff_forall_mem.mp (by decide)
  obtain ⟨hprimary, hbracket, hspace⟩ := hclosers c hc
  refine ⟨⟨hprimary, ?_⟩, ?_⟩
  · exact fun h => hbracket (List.cons_prefix_cons.mp h).1.symm
  · exact fun h => hspace (List.cons_prefix_cons.mp h).1.symm

theorem ends_closing_brace (rest : List Char) : Ends .union (" \x7d".toList ++ rest) := by
  refine ⟨⟨rfl, ?_⟩, ?_⟩
  · exact fun h => absurd (List.cons_prefix_cons.mp h).1 (by decide)
  · intro h
    have hbar := (List.cons_prefix_cons.mp h).2
    exact absurd (List.cons_prefix_cons.mp hbar).1 (by decide)

theorem ends_bracketPairs_append (count : Nat) {rest : List Char} (h : Ends .arrays rest) :
    Ends .primary (bracketPairs count ++ rest) := by
  cases count with
  | zero => exact h.1
  | succ count =>
      rw [bracketPairs, List.replicate_succ, List.flatten_cons, List.append_assoc]
      change (isNameChar '[' || '[' == '<') = false
      decide

theorem ends_undefinedParts_append (count : Nat) {rest : List Char} (h : Ends .union rest) :
    Ends .arrays (undefinedParts count ++ rest) := by
  cases count with
  | zero => exact h.1
  | succ count =>
      rw [undefinedParts, List.replicate_succ, List.flatten_cons, List.append_assoc]
      refine ⟨?_, fun hprefix => ?_⟩
      · change (isNameChar ' ' || ' ' == '<') = false
        decide
      · exact absurd (List.cons_prefix_cons.mp hprefix).1 (by decide)

/-- How often a word is repeated is seen from the text, if what follows does not begin with it. -/
theorem replicate_append_inj {word rest rest' : List Char} {count count' : Nat}
    (hrest : ¬word <+: rest) (hrest' : ¬word <+: rest')
    (h : (List.replicate count word).flatten ++ rest =
      (List.replicate count' word).flatten ++ rest') : count = count' := by
  have hmore : ∀ (more : Nat) (text : List Char),
      word <+: (List.replicate (more + 1) word).flatten ++ text := by
    intro more text
    rw [List.replicate_succ, List.flatten_cons, List.append_assoc]
    exact List.prefix_append word _
  induction count generalizing count' with
  | zero =>
      cases count' with
      | zero => rfl
      | succ count' =>
          refine absurd (hmore count' rest') ?_
          rwa [← h]
  | succ count ih =>
      cases count' with
      | zero =>
          refine absurd (hmore count rest) ?_
          rwa [h]
      | succ count' =>
          rw [List.replicate_succ, List.flatten_cons, List.append_assoc, List.replicate_succ,
            List.flatten_cons, List.append_assoc] at h
          rw [ih (List.append_cancel_left h)]

/-! ### Unambiguity -/

/-- The longest front of characters of a name is found in the text. -/
theorem isName_append_inj {name name' rest rest' : List Char} (h : IsName name) (h' : IsName name')
    (hrest : rest.head?.any isNameChar = false) (hrest' : rest'.head?.any isNameChar = false)
    (heq : name ++ rest = name' ++ rest') : name = name' ∧ rest = rest' := by
  have htake := congrArg (List.takeWhile isNameChar) heq
  rw [takeWhile_append_of_boundary h.2 hrest, takeWhile_append_of_boundary h'.2 hrest'] at htake
  subst htake
  exact ⟨rfl, List.append_cancel_left heq⟩

theorem EndsPrimary.isNameChar_head? {rest : List Char} (h : EndsPrimary rest) :
    rest.head?.any isNameChar = false := by
  cases rest with
  | nil => rfl
  | cons c rest => exact (Bool.or_eq_false_iff.mp h).1

theorem EndsPrimary.head?_ne {rest : List Char} (h : EndsPrimary rest) : rest.head? ≠ some '<' := by
  cases rest with
  | nil => simp
  | cons c rest =>
      have hangle := (Bool.or_eq_false_iff.mp h).2
      simpa using hangle

/-- What follows one of several arguments: the next ones, or the closing `>`. -/
def afterArgument (arguments : List (List Char × Meaning)) (rest : List Char) : List Char :=
  match arguments with
  | [] => '>' :: rest
  | _ :: _ => ',' :: ' ' :: ([',', ' '].intercalate (arguments.map Prod.fst) ++ '>' :: rest)

theorem intercalate_append (argument : List Char × Meaning)
    (arguments : List (List Char × Meaning)) (rest : List Char) :
    [',', ' '].intercalate ((argument :: arguments).map Prod.fst) ++ '>' :: rest =
      argument.1 ++ afterArgument arguments rest := by
  cases arguments with
  | nil => simp [afterArgument]
  | cons other arguments => simp [afterArgument, List.intercalate_cons_cons]

theorem ends_afterArgument (arguments : List (List Char × Meaning)) (rest : List Char) :
    Ends .union (afterArgument arguments rest) := by
  cases arguments with
  | nil => exact ends_closer (by decide) rest
  | cons argument arguments => exact ends_closer (by decide) _

theorem arguments_inj {arguments arguments' : List (List Char × Meaning)} {rest rest' : List Char}
    (hne : arguments ≠ []) (hne' : arguments' ≠ [])
    (h : ∀ argument ∈ arguments, ReadOnce .union argument.1 argument.2)
    (h' : ∀ argument ∈ arguments', Reads .union argument.1 argument.2)
    (heq : [',', ' '].intercalate (arguments.map Prod.fst) ++ '>' :: rest =
      [',', ' '].intercalate (arguments'.map Prod.fst) ++ '>' :: rest') :
    arguments = arguments' := by
  induction arguments generalizing arguments' with
  | nil => exact absurd rfl hne
  | cons argument arguments ih =>
      cases arguments' with
      | nil => exact absurd rfl hne'
      | cons argument' arguments' =>
          rw [intercalate_append, intercalate_append] at heq
          obtain ⟨htext, hmeaning⟩ := h argument List.mem_cons_self (h' argument' List.mem_cons_self)
            (ends_afterArgument arguments rest) (ends_afterArgument arguments' rest') heq
          obtain rfl : argument = argument' := Prod.ext htext hmeaning
          have hafter := List.append_cancel_left heq
          refine congrArg (argument :: ·) ?_
          cases arguments with
          | nil =>
              cases arguments' with
              | nil => rfl
              | cons other arguments' => simp [afterArgument] at hafter
          | cons other arguments =>
              cases arguments' with
              | nil => simp [afterArgument] at hafter
              | cons other' arguments' =>
                  have hmore := (List.cons.inj (List.cons.inj hafter).2).2
                  exact ih (by simp) (by simp)
                    (fun later hmem => h later (List.mem_cons_of_mem argument hmem))
                    (fun later hmem => h' later (List.mem_cons_of_mem argument hmem)) hmore

/-- A name does not begin like the other primary types. -/
theorem isName_append_ne_cons {name : List Char} (h : IsName name) {c : Char}
    (hc : isNameChar c = false) (rest text : List Char) : name ++ rest ≠ c :: text := by
  obtain ⟨d, more, rfl⟩ := List.exists_cons_of_ne_nil h.1
  intro heq
  obtain rfl := (List.cons.inj heq).1
  exact absurd (h.2 d List.mem_cons_self) (by simp [hc])

theorem readOnce_named {name : List Char} (hname : IsName name) :
    ReadOnce .primary name (.named (String.ofList name)) := by
  intro text' meaning' rest rest' h' hrest hrest' heq
  cases h' with
  | named hname' =>
      obtain ⟨rfl, _⟩ :=
        isName_append_inj hname hname' hrest.isNameChar_head? hrest'.isNameChar_head? heq
      exact ⟨rfl, rfl⟩
  | generic hname' =>
      rw [List.append_assoc, List.cons_append] at heq
      obtain ⟨_, rfl⟩ := isName_append_inj hname hname' hrest.isNameChar_head? rfl heq
      exact absurd rfl hrest.head?_ne
  | dictionary => exact absurd heq (isName_append_ne_cons hname (by decide) _ _)
  | grouped => exact absurd heq (isName_append_ne_cons hname (by decide) _ _)

theorem readOnce_generic {name : List Char} {arguments : List (List Char × Meaning)}
    (hname : IsName name) (hne : arguments ≠ [])
    (harguments : ∀ argument ∈ arguments, ReadOnce .union argument.1 argument.2) :
    ReadOnce .primary
      (name ++ '<' :: ([',', ' '].intercalate (arguments.map Prod.fst) ++ ['>']))
      (.generic (String.ofList name) (arguments.map Prod.snd)) := by
  intro text' meaning' rest rest' h' hrest hrest' heq
  simp only [List.append_assoc, List.cons_append, List.nil_append] at heq
  cases h' with
  | named hname' =>
      obtain ⟨_, rfl⟩ := isName_append_inj hname hname' rfl hrest'.isNameChar_head? heq
      exact absurd rfl hrest'.head?_ne
  | generic hname' hne' harguments' =>
      simp only [List.append_assoc, List.cons_append, List.nil_append] at heq
      obtain ⟨rfl, hmore⟩ := isName_append_inj hname hname' rfl rfl heq
      obtain rfl := arguments_inj hne hne' harguments harguments' (List.cons.inj hmore).2
      exact ⟨rfl, rfl⟩
  | dictionary => exact absurd heq (isName_append_ne_cons hname (by decide) _ _)
  | grouped => exact absurd heq (isName_append_ne_cons hname (by decide) _ _)

theorem readOnce_dictionary {key value : List Char} {keyMeaning valueMeaning : Meaning}
    (hkey : ReadOnce .union key keyMeaning) (hvalue : ReadOnce .union value valueMeaning) :
    ReadOnce .primary
      ("\x7b [key: ".toList ++ (key ++ ("]: ".toList ++ (value ++ " \x7d".toList))))
      (.dictionary keyMeaning valueMeaning) := by
  intro text' meaning' rest rest' h' hrest hrest' heq
  have hbrace : isNameChar '\x7b' = false := by decide
  simp only [List.append_assoc] at heq
  cases h' with
  | named hname' => exact absurd heq.symm (isName_append_ne_cons hname' hbrace _ _)
  | generic hname' =>
      rw [List.append_assoc] at heq
      exact absurd heq.symm (isName_append_ne_cons hname' hbrace _ _)
  | dictionary hkey' hvalue' =>
      simp only [List.append_assoc] at heq
      obtain ⟨rfl, rfl⟩ := hkey hkey' (ends_closer (by decide) _) (ends_closer (by decide) _)
        (List.append_cancel_left heq)
      have hvalues := List.append_cancel_left (List.append_cancel_left (List.append_cancel_left heq))
      obtain ⟨rfl, rfl⟩ :=
        hvalue hvalue' (ends_closing_brace rest) (ends_closing_brace rest') hvalues
      exact ⟨rfl, rfl⟩
  | grouped => exact absurd (List.cons.inj heq).1 (by decide)

theorem readOnce_grouped {text : List Char} {meaning : Meaning} (h : ReadOnce .union text meaning) :
    ReadOnce .primary ('(' :: (text ++ [')'])) meaning := by
  intro text' meaning' rest rest' h' hrest hrest' heq
  have hparenthesis : isNameChar '(' = false := by decide
  simp only [List.append_assoc, List.cons_append, List.nil_append] at heq
  cases h' with
  | named hname' => exact absurd heq.symm (isName_append_ne_cons hname' hparenthesis _ _)
  | generic hname' =>
      rw [List.append_assoc] at heq
      exact absurd heq.symm (isName_append_ne_cons hname' hparenthesis _ _)
  | dictionary => exact absurd (List.cons.inj heq).1 (by decide)
  | grouped h' =>
      simp only [List.append_assoc, List.cons_append, List.nil_append] at heq
      have hinside := (List.cons.inj heq).2
      obtain ⟨rfl, rfl⟩ := h h' (ends_closer (by decide) _) (ends_closer (by decide) _) hinside
      exact ⟨rfl, rfl⟩

theorem readOnce_of_reads {layer : Layer} {text : List Char} {meaning : Meaning}
    (h : Reads layer text meaning) : ReadOnce layer text meaning := by
  induction h with
  | named hname => exact readOnce_named hname
  | generic hname hne _ ih => exact readOnce_generic hname hne ih
  | dictionary _ _ ihkey ihvalue => exact readOnce_dictionary ihkey ihvalue
  | grouped _ ih => exact readOnce_grouped ih
  | @arrays text meaning count _ ih =>
      intro text' meaning' rest rest' h' hrest hrest' heq
      cases h' with
      | arrays count' h' =>
          rw [List.append_assoc, List.append_assoc] at heq
          obtain ⟨rfl, rfl⟩ := ih h' (ends_bracketPairs_append count hrest)
            (ends_bracketPairs_append count' hrest') heq
          obtain rfl := replicate_append_inj hrest.2 hrest'.2 (List.append_cancel_left heq)
          exact ⟨rfl, rfl⟩
  | @union text meaning count _ ih =>
      intro text' meaning' rest rest' h' hrest hrest' heq
      cases h' with
      | union count' h' =>
          rw [List.append_assoc, List.append_assoc] at heq
          obtain ⟨rfl, rfl⟩ := ih h' (ends_undefinedParts_append count hrest)
            (ends_undefinedParts_append count' hrest') heq
          obtain rfl := replicate_append_inj hrest.2 hrest'.2 (List.append_cancel_left heq)
          exact ⟨rfl, rfl⟩

/-- A text of a layer has one meaning. -/
theorem Reads.eq {layer : Layer} {text : List Char} {meaning meaning' : Meaning}
    (h : Reads layer text meaning) (h' : Reads layer text meaning') : meaning = meaning' :=
  (readOnce_of_reads h h' (ends_nil layer) (ends_nil layer) rfl).2

end TypeScribe.TsType
