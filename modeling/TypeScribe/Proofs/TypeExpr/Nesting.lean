import TypeScribe.TypeExpr.Parser

/-!
# Searches pass over nested text

Where the brackets of either kind pair up and commas stand only between them, the search for the `>`
that closes a generic part and the search for the commas that cut its arguments pass over the whole
text.
-/

namespace TypeScribe.TypeExpr

/-- Text in which the brackets pair up and, unless it stands `inside` of some, no comma stands outside
of them. -/
inductive Nested : (inside : Bool) → List Char → Prop where
  | nil {inside : Bool} : Nested inside []
  | plain {inside : Bool} {c : Char} {text : List Char} (hc : c ∉ ['<', '>', ',', '[', ']'])
      (htext : Nested inside text) : Nested inside (c :: text)
  | comma {text : List Char} (htext : Nested true text) : Nested true (',' :: text)
  | brackets {inside : Bool} {inner text : List Char} (hinner : Nested true inner)
      (htext : Nested inside text) : Nested inside ('[' :: inner ++ ']' :: text)
  | angles {inside : Bool} {inner text : List Char} (hinner : Nested true inner)
      (htext : Nested inside text) : Nested inside ('<' :: inner ++ '>' :: text)

namespace Nested

variable {inside : Bool} {text other : List Char}

theorem append (h : Nested inside text) (hother : Nested inside other) :
    Nested inside (text ++ other) := by
  induction h with
  | nil => exact hother
  | plain hc _ ih => exact .plain hc (ih hother)
  | comma _ ih => exact .comma (ih hother)
  | brackets hinner _ _ ih =>
      rw [List.append_assoc]
      exact .brackets hinner (ih hother)
  | angles hinner _ _ ih =>
      rw [List.append_assoc]
      exact .angles hinner (ih hother)

theorem inner (h : Nested inside text) : Nested true text := by
  induction h with
  | nil => exact .nil
  | plain hc _ ih => exact .plain hc ih
  | comma _ ih => exact .comma ih
  | brackets hinner _ _ ih => exact .brackets hinner ih
  | angles hinner _ _ ih => exact .angles hinner ih

theorem of_plain (h : ∀ c ∈ text, c ∉ ['<', '>', ',', '[', ']']) : Nested inside text := by
  induction text with
  | nil => exact .nil
  | cons c text ih =>
      exact .plain (h c List.mem_cons_self) (ih fun d hd => h d (List.mem_cons_of_mem c hd))

/-- Inside of brackets commas may stand anywhere. -/
theorem of_plain_or_comma (h : ∀ c ∈ text, c = ',' ∨ c ∉ ['<', '>', ',', '[', ']']) :
    Nested true text := by
  induction text with
  | nil => exact .nil
  | cons c text ih =>
      have htext := ih fun d hd => h d (List.mem_cons_of_mem c hd)
      rcases h c List.mem_cons_self with rfl | hc
      · exact .comma htext
      · exact .plain hc htext

theorem intercalate {pieces : List (List Char)} (h : ∀ piece ∈ pieces, Nested false piece) :
    Nested true ([','].intercalate pieces) := by
  induction pieces with
  | nil => exact .nil
  | cons piece pieces ih =>
      have hhead := (h piece List.mem_cons_self).inner
      have htail := ih fun other hother => h other (List.mem_cons_of_mem piece hother)
      cases pieces with
      | nil => simpa using hhead
      | cons other pieces =>
          rw [List.intercalate_cons_cons, List.append_assoc]
          exact hhead.append (.comma htail)

/-- The `>` that closes is looked for behind nested text. -/
theorem closeAngle_append (h : Nested inside text) (depth : Nat) (after : List Char) :
    closeAngle depth (text ++ after) =
      (closeAngle depth after).map fun (front, rest) => (text ++ front, rest) := by
  induction h generalizing depth after with
  | nil => simp
  | @plain inside c text hc _ ih =>
      simp only [List.mem_cons, not_or] at hc
      rw [List.cons_append, closeAngle, if_neg (fun h => hc.2.1 h.1), ih, Option.map_map]
      simp [angleDepth, hc.1, hc.2.1, Function.comp_def]
  | comma _ ih =>
      rw [List.cons_append, closeAngle, if_neg (by simp), ih, Option.map_map]
      rfl
  | @brackets inside inner text _ _ ihinner ih =>
      rw [List.cons_append, List.cons_append, List.append_assoc, List.cons_append, closeAngle,
        if_neg (by simp), ihinner, closeAngle, if_neg (by simp), ih, Option.map_map,
        Option.map_map, Option.map_map]
      simp [angleDepth, Function.comp_def]
  | @angles inside inner text _ _ ihinner ih =>
      rw [List.cons_append, List.cons_append, List.append_assoc, List.cons_append, closeAngle,
        if_neg (by simp), ihinner, closeAngle, if_neg (by simp [angleDepth]), Option.map_map,
        Option.map_map]
      simp [angleDepth, ih, Function.comp_def]

/-- Text is cut behind nested text. -/
theorem splitArguments_append (h : Nested inside text) {depth : Int} (hdepth : 0 ≤ depth)
    (hinside : inside = true → depth ≠ 0) (after : List Char) :
    splitArguments depth (text ++ after) =
      (text ++ (splitArguments depth after).1, (splitArguments depth after).2) := by
  induction h generalizing depth after with
  | nil => rfl
  | @plain inside c text hc _ ih =>
      simp only [List.mem_cons, not_or] at hc
      have hflat : depth + nesting c = depth := by simp [nesting, hc]
      rw [List.cons_append, splitArguments, if_neg (fun h => hc.2.2.1 h.1), hflat,
        ih hdepth hinside]
      rfl
  | comma _ ih =>
      have hflat : depth + nesting ',' = depth := by simp [nesting]
      rw [List.cons_append, splitArguments, if_neg (fun h => hinside rfl h.2), hflat,
        ih hdepth hinside]
      rfl
  | @brackets inside inner text _ _ ihinner ih =>
      have hopen : depth + nesting '[' = depth + 1 := by simp [nesting]
      have hclose : depth + 1 + nesting ']' = depth := Int.add_neg_cancel_right depth 1
      rw [List.cons_append, List.cons_append, List.append_assoc, List.cons_append, splitArguments,
        if_neg (by simp), hopen, ihinner (by omega) (fun _ => by omega), splitArguments,
        if_neg (by simp), hclose, ih hdepth hinside]
      simp
  | @angles inside inner text _ _ ihinner ih =>
      have hopen : depth + nesting '<' = depth + 1 := by simp [nesting]
      have hclose : depth + 1 + nesting '>' = depth := Int.add_neg_cancel_right depth 1
      rw [List.cons_append, List.cons_append, List.append_assoc, List.cons_append, splitArguments,
        if_neg (by simp), hopen, ihinner (by omega) (fun _ => by omega), splitArguments,
        if_neg (by simp), hclose, ih hdepth hinside]
      simp

end Nested

/-- Texts that are joined by commas are cut apart again. -/
theorem argumentTexts_intercalate {pieces : List (List Char)} (hne : pieces ≠ [])
    (h : ∀ piece ∈ pieces, Nested false piece) :
    argumentTexts ([','].intercalate pieces) = pieces := by
  induction pieces with
  | nil => exact absurd rfl hne
  | cons piece pieces ih =>
      have hpiece := h piece List.mem_cons_self
      cases pieces with
      | nil =>
          have hsplit := hpiece.splitArguments_append (Int.le_refl 0) (by simp) []
          rw [List.append_nil] at hsplit
          rw [List.intercalate_singleton, argumentTexts, hsplit]
          simp [splitArguments]
      | cons other pieces =>
          have htail := ih (by simp) fun piece' hmem => h piece' (List.mem_cons_of_mem piece hmem)
          rw [argumentTexts, List.cons.injEq] at htail
          rw [List.intercalate_cons_cons, List.append_assoc, argumentTexts,
            hpiece.splitArguments_append (Int.le_refl 0) (by simp), List.singleton_append,
            splitArguments, if_pos ⟨rfl, rfl⟩]
          simp [htail]

end TypeScribe.TypeExpr
