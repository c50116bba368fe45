import FactStream.Language.CSharp.Literal
import FactStream.Proofs.Slice

/-!
# Raw strings

A raw string stands between two rows of at least three quotes. On one line it is what stands between
them. Over several lines, the first line and the last one hold only quotes, and the indentation of
the last line is taken off from all others.

Main statement: `CSharp.raw_strings`. An empty last line of the text gets lost if there is no
indentation, as `CSharp.raw_string_loses_line` shows; nothing else ever gets lost.
-/

namespace FactStream

open Text

namespace Text

/-- Of the lines of a text without carriage returns, only an empty last one is left out. -/
theorem ended_eq {parts : List (List Char)} (h : ∀ l ∈ parts, '\r' ∉ l) :
    lines.ended parts = if parts.getLast? = some [] then parts.dropLast else parts := by
  induction parts with
  | nil => rfl
  | cons l parts ih =>
    obtain ⟨hl, hparts⟩ := List.forall_mem_cons.1 h
    cases parts with
    | nil => cases l <;> rfl
    | cons m rest =>
      have hreturn : dropEnd? ['\r'] l = none := by
        refine dropEnd?_of_getLast?_ne (List.cons_ne_nil _ _) fun hlast => ?_
        exact hl (List.mem_of_getLast? hlast)
      rw [lines.ended, hreturn, ih hparts, List.getLast?_cons_cons, List.dropLast_cons_cons]
      · split <;> rfl
      · exact List.cons_ne_nil _ _

theorem lines_joinLists {parts : List (List Char)} (hne : parts ≠ [])
    (h : ∀ l ∈ parts, '\n' ∉ l ∧ '\r' ∉ l) :
    lines (joinLists ['\n'] parts) =
      if parts.getLast? = some [] then parts.dropLast else parts := by
  rw [lines, split_joinLists rfl hne, ended_eq fun l hl => (h l hl).2]
  intro l hl c hc
  refine decide_eq_false ?_
  rintro rfl
  exact (h l hl).1 hc

theorem flatMap_concat (separator : Char) {parts : List (List Char)} (hne : parts ≠ []) :
    parts.flatMap (· ++ [separator]) = joinLists [separator] parts ++ [separator] := by
  induction parts with
  | nil => exact absurd rfl hne
  | cons l parts ih =>
    cases parts with
    | nil => simp [joinLists]
    | cons m rest =>
      rw [List.flatMap_cons, ih (List.cons_ne_nil _ _), joinLists_cons_cons,
        List.append_assoc _ _ [separator]]

end Text

namespace CSharp

def quotes (n : Nat) : List Char := List.replicate n '"'

/-- The raw string with a text of several lines, all of them indented. -/
def blockLiteral (n : Nat) (indent : List Char) (text : List (List Char)) : List Char :=
  quotes n ++ ('\n' :: text.flatMap (fun line => indent ++ line ++ ['\n']) ++ indent) ++ quotes n

/-! ## Quotes -/

theorem getLast?_quotes {n : Nat} (hn : n ≠ 0) : (quotes n).getLast? = some '"' := by
  rw [quotes, List.getLast?_replicate, if_neg hn]

theorem dropEncoding_of_getLast? {raw : List Char} {c : Char} (h : raw.getLast? = some c)
    (hc : c ≠ '8') : dropEncoding raw = raw := by
  have hnone : dropEnd? ['u', '8'] raw = none := by
    refine dropEnd?_of_getLast?_ne (List.cons_ne_nil _ _) ?_
    rw [h]
    exact fun heq => hc (Option.some.inj heq)
  rw [dropEncoding, hnone]

theorem textOfLiteral_raw {n : Nat} (hn : 3 ≤ n) {body : List Char} (hne : body ≠ [])
    (hhead : body.head? ≠ some '"') :
    textOfLiteral (quotes n ++ body ++ quotes n) = rawLines body := by
  obtain ⟨c, rest, rfl⟩ := List.exists_cons_of_ne_nil hne
  have hlast : (quotes n ++ c :: rest ++ quotes n).getLast? = some '"' := by
    rw [List.getLast?_append, getLast?_quotes (by omega), Option.some_or]
  have hopen : (quotes n ++ c :: rest ++ quotes n).takeWhile (· = '"') = quotes n := by
    have hc : c ≠ '"' := fun hc => hhead (congrArg some hc)
    have hall : ∀ d ∈ quotes n, decide (d = '"') = true := fun d hd =>
      decide_eq_true (List.eq_of_mem_replicate hd)
    rw [List.append_assoc, List.takeWhile_append_of_pos hall, List.cons_append,
      List.takeWhile_cons_of_neg (by simpa using hc), List.append_nil]
  have hlength : (quotes n).length = n := List.length_replicate
  have hbytes : byteLength (quotes n ++ c :: rest ++ quotes n) - 2 * n =
      byteLength (c :: rest) := by
    have hquote : byteLength (quotes n) = n := by
      rw [quotes, byteLength_replicate, show Char.utf8Size '"' = 1 from rfl, Nat.mul_one]
    rw [byteLength_append, byteLength_append, hquote]
    omega
  have hdrop : (quotes n ++ c :: rest ++ quotes n).drop n = c :: rest ++ quotes n := by
    rw [List.append_assoc, List.drop_left' hlength]
  rw [textOfLiteral, dropEncoding_of_getLast? hlast (by decide), hopen, hlength, if_pos hn, hbytes,
    hdrop, takeBytes?_append, Option.getD_some]

/-! ## Lines -/

/-- The last line gives the indentation, and the line feed before it ends the text. -/
theorem rawLines_block {indent text : List Char} (hindent : '\n' ∉ indent)
    (htext : text.getLast? ≠ some '\r') :
    rawLines ('\n' :: (text ++ '\n' :: indent)) =
      joinLists ['\n'] ((lines text).map fun line => (dropStart? indent line).getD line) := by
  have hlast : ((text ++ '\n' :: indent).reverse.takeWhile (· ≠ '\n')).reverse = indent := by
    have hall : ∀ c ∈ indent.reverse, decide (c ≠ '\n') = true := by
      intro c hc
      refine decide_eq_true ?_
      rintro rfl
      exact hindent (List.mem_reverse.1 hc)
    rw [List.reverse_append, List.reverse_cons, List.append_assoc,
      List.takeWhile_append_of_pos hall, List.singleton_append,
      List.takeWhile_cons_of_neg (by simp), List.append_nil, List.reverse_reverse]
  have hcontent : (text ++ '\n' :: indent).take
      ((text ++ '\n' :: indent).length - indent.length) = text ++ ['\n'] := by
    have hsplit : text ++ '\n' :: indent = (text ++ ['\n']) ++ indent := by simp
    rw [hsplit, List.length_append, Nat.add_sub_cancel, List.take_left]
  have htrim : trimEnd (· = '\r') text = text := by
    have h := trimEnd_append (p := (· = '\r')) (l := text) (r := [])
      (fun c hc => decide_eq_false fun heq => htext (heq ▸ hc)) (by simp)
    rwa [List.append_nil] at h
  have hstart : dropStart? ['\n'] ('\n' :: (text ++ '\n' :: indent)) =
      some (text ++ '\n' :: indent) := dropStart?_append ['\n'] _
  rw [rawLines, hstart, Option.some_or]
  simp only [hlast, hcontent]
  rw [if_neg (by simp), List.dropLast_concat, htrim]

theorem blockLiteral_eq {n : Nat} {indent : List Char} {text : List (List Char)}
    (hne : text ≠ []) :
    blockLiteral n indent text =
      quotes n ++ '\n' :: (joinLists ['\n'] (text.map (indent ++ ·)) ++ '\n' :: indent) ++
        quotes n := by
  have hlines : text.flatMap (fun line => indent ++ line ++ ['\n']) =
      joinLists ['\n'] (text.map (indent ++ ·)) ++ ['\n'] := by
    rw [← flatMap_concat '\n' (by simpa using hne), List.flatMap_map]
  rw [blockLiteral, hlines, List.cons_append, List.append_assoc (joinLists _ _),
    List.singleton_append]

theorem map_dropStart? (indent : List Char) (text : List (List Char)) :
    (text.map (indent ++ ·)).map (fun line => (dropStart? indent line).getD line) = text := by
  rw [List.map_map]
  refine (List.map_congr_left fun line _ => ?_).trans (List.map_id text)
  rw [Function.comp_apply, dropStart?_append, Option.getD_some, id]

/-- The text of a raw string. Over several lines it is the lines with line feeds between them, but
without indentation an empty last line gets lost. On one line it is what stands between the quotes.
Whichever other quotes stand in the text makes no difference. -/
theorem raw_strings {n : Nat} (hn : 3 ≤ n) :
    (∀ indent text, (∀ c ∈ indent, c = ' ' ∨ c = '\t') → text ≠ [] →
      (∀ line ∈ text, '\n' ∉ line ∧ '\r' ∉ line) →
      textOfLiteral (blockLiteral n indent text) =
        joinLists ['\n']
          (if indent = [] ∧ text.getLast? = some [] then text.dropLast else text)) ∧
    ∀ s, s ≠ [] → '\n' ∉ s → s.head? ≠ some '"' →
      textOfLiteral (quotes n ++ s ++ quotes n) = s := by
  refine ⟨fun indent text hindent hne hlines => ?_, fun s hne hfeed hhead => ?_⟩
  · have hblank {x : Char} (hspace : x ≠ ' ') (htab : x ≠ '\t') : x ∉ indent :=
      fun hx => (hindent x hx).elim hspace htab
    have hparts : ∀ l ∈ text.map (indent ++ ·), '\n' ∉ l ∧ '\r' ∉ l := by
      intro l hl
      obtain ⟨line, hline, rfl⟩ := List.mem_map.1 hl
      simp only [List.mem_append, not_or]
      exact ⟨⟨hblank (by decide) (by decide), (hlines line hline).1⟩,
        hblank (by decide) (by decide), (hlines line hline).2⟩
    have hreturn : (joinLists ['\n'] (text.map (indent ++ ·))).getLast? ≠ some '\r' := by
      intro hlast
      rcases mem_joinLists (List.mem_of_getLast? hlast) with hmem | ⟨l, hl, hmem⟩
      · simp at hmem
      · exact (hparts l hl).2 hmem
    have hempty : (text.map (indent ++ ·)).getLast? = some [] ↔
        indent = [] ∧ text.getLast? = some [] := by
      rw [List.getLast?_map]
      cases text.getLast? <;> simp
    rw [blockLiteral_eq hne, textOfLiteral_raw hn (List.cons_ne_nil _ _) (by simp),
      rawLines_block (hblank (by decide) (by decide)) hreturn,
      lines_joinLists (by simpa using hne) hparts]
    by_cases h : indent = [] ∧ text.getLast? = some []
    · rw [if_pos h, if_pos (hempty.2 h), ← List.map_dropLast, map_dropStart?]
    · rw [if_neg h, if_neg (mt hempty.1 h), map_dropStart?]
  · rw [textOfLiteral_raw hn hne hhead, rawLines,
      dropStart?_of_not_mem List.mem_cons_self hfeed,
      dropStart?_of_not_mem (List.mem_cons_of_mem _ List.mem_cons_self) hfeed]
    rfl

/-- Three quotes, two indented lines, of which the second is empty, and the same text without
indentation. -/
theorem raw_strings_indented :
    textOfLiteral (blockLiteral 3 [' ', '\t'] [['"', 'a'], []]) = ['"', 'a', '\n'] ∧
      textOfLiteral (blockLiteral 3 [] [['"', 'a'], []]) = ['"', 'a'] ∧
      textOfLiteral (quotes 3 ++ ['a', '"'] ++ quotes 3) = ['a', '"'] := by
  obtain ⟨hblock, hline⟩ := raw_strings (Nat.le_refl 3)
  exact ⟨hblock _ _ (by simp) (by decide) (by decide),
    hblock _ _ (by simp) (by decide) (by decide), hline _ (by decide) (by decide) (by decide)⟩

/-- Without indentation, the empty line at the end of a text is not in its value. -/
theorem raw_string_loses_line :
    let text := [['a'], []]
    (∀ line ∈ text, '\n' ∉ line ∧ '\r' ∉ line ∧ '"' ∉ line) ∧
      textOfLiteral (blockLiteral 3 [] text) = ['a'] ∧ joinLists ['\n'] text = ['a', '\n'] := by
  decide +kernel

end CSharp

end FactStream
