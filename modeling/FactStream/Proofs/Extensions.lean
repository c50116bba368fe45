import FactStream.Project
import FactStream.Proofs.Kinds

/-!
# The extensions of a language

Settings can give a language other extensions, and two parts of the program read them. A registry
goes through the keys in order and takes each as any name of a language, so the last key that names
the language decides (`Registry.extensionsOf_withExtensions`). A run asks for the short name only.
And a registry compares extensions in full lower case, a run up to the case of ASCII letters.

Main statement: `RunPlan.extensions_of_registry` says when the two agree. They do not always, as
`RunPlan.extensions_apart` shows.
-/

namespace FactStream

/-! ## Case -/

namespace Text

theorem forall_capital {P : Char → Prop} (h : ∀ n < 26, P (Char.ofNat (65 + n))) {c : Char}
    (hc : 'A' ≤ c ∧ c ≤ 'Z') : P c := by
  have hfirst : 65 ≤ c.toNat := hc.1
  have hlast : c.toNat ≤ 90 := hc.2
  have hn := h (c.toNat - 65) (by omega)
  rwa [show 65 + (c.toNat - 65) = c.toNat by omega, Char.ofNat_toNat] at hn

theorem lowerAscii_of_not_capital {c : Char} (h : ¬ ('A' ≤ c ∧ c ≤ 'Z')) : lowerAscii c = c :=
  if_neg h

/-- What is the same for a capital and its small letter need be checked for no other character. -/
theorem lowerAscii_congr {α : Type} {f : Char → α}
    (h : ∀ n < 26, f (lowerAscii (Char.ofNat (65 + n))) = f (Char.ofNat (65 + n))) (c : Char) :
    f (lowerAscii c) = f c := by
  by_cases hc : 'A' ≤ c ∧ c ≤ 'Z'
  · exact forall_capital (P := fun c => f (lowerAscii c) = f c) h hc
  · rw [lowerAscii_of_not_capital hc]

theorem lowerChar_lowerAscii (c : Char) : lowerChar (lowerAscii c) = lowerChar c :=
  lowerAscii_congr (by decide +kernel) c

theorem lowerAscii_eq_sigma (c : Char) : lowerAscii c = 'Σ' ↔ c = 'Σ' :=
  Iff.of_eq (lowerAscii_congr (f := fun c => c = 'Σ') (by decide +kernel) c)

theorem meetsCased_lowerAscii (cs : List Char) :
    meetsCased (cs.map lowerAscii) = meetsCased cs := by
  have hignorable : ∀ c, inRanges caseIgnorableRanges (lowerAscii c) =
      inRanges caseIgnorableRanges c := lowerAscii_congr (by decide +kernel)
  have hcased : ∀ c, inRanges casedRanges (lowerAscii c) = inRanges casedRanges c :=
    lowerAscii_congr (by decide +kernel)
  unfold meetsCased
  induction cs with
  | nil => rfl
  | cons c rest ih =>
    rw [List.map_cons, List.dropWhile_cons, List.dropWhile_cons, hignorable]
    split
    · exact ih
    · simp [hcased]

theorem lowerAfter_lowerAscii (before cs : List Char) :
    lowerAfter (before.map lowerAscii) (cs.map lowerAscii) = lowerAfter before cs := by
  induction cs generalizing before with
  | nil => rfl
  | cons c rest ih =>
    have hrest := ih (c :: before)
    rw [List.map_cons] at hrest
    simp only [List.map_cons, lowerAfter, lowerAscii_eq_sigma, lowerChar_lowerAscii,
      meetsCased_lowerAscii, hrest]

theorem lower_lowerAsciiText (s : String) : lower (lowerAsciiText s) = lower s := by
  rw [lower, lowerAsciiText, String.toList_ofList]
  exact congrArg String.ofList (lowerAfter_lowerAscii [] s.toList)

theorem equalIgnoringAsciiCase_iff {s t : String} :
    equalIgnoringAsciiCase s t = true ↔ lowerAsciiText s = lowerAsciiText t := by
  rw [equalIgnoringAsciiCase, beq_iff_eq, lowerAsciiText, lowerAsciiText, String.ofList_inj]

/-- Only ASCII letters of the text have another lower-case form. -/
def PlainCase (s : String) : Prop :=
  lower s = lowerAsciiText s

instance (s : String) : Decidable (PlainCase s) :=
  inferInstanceAs (Decidable (_ = _))

end Text

/-- Whether a language goes by a name. -/
def Language.goesBy (language : Language) (name : String) : Bool :=
  language.nameSpace == name || language.aliases.contains name

def withoutDots (extension : String) : String :=
  String.ofList (extension.toList.dropWhile (· = '.'))

/-! ## Registries -/

namespace Registry

variable {language : Language}

theorem goesBy_nameSpace (language : Language) : language.goesBy language.nameSpace = true := by
  simp [Language.goesBy]

theorem goesBy_iff (name : String) :
    language.goesBy name = true ↔ name ∈ language.nameSpace :: language.aliases := by
  rw [Language.goesBy, Bool.or_eq_true, beq_iff_eq, List.contains_iff_mem, List.mem_cons, eq_comm]

/-- No name is used twice. -/
theorem named?_iff (h : language ∈ standard.languages) (name : String) :
    standard.named? name = some language ↔ language.goesBy name = true := by
  constructor
  · intro hfind
    unfold named? at hfind
    have hname := List.find?_some hfind
    exact hname
  · intro hname
    rw [goesBy_iff] at hname
    rcases mem_languages.1 h with rfl | rfl | rfl
    · have hname : name ∈ ["csharp", "cs", "c#"] := hname
      simp only [List.mem_cons, List.not_mem_nil, or_false] at hname
      rcases hname with rfl | rfl | rfl <;> rfl
    · have hname : name ∈ ["php"] := hname
      simp only [List.mem_cons, List.not_mem_nil, or_false] at hname
      rw [hname]
      rfl
    · have hname : name ∈ ["ts", "typescript", "js", "javascript"] := hname
      simp only [List.mem_cons, List.not_mem_nil, or_false] at hname
      rcases hname with rfl | rfl | rfl | rfl <;> rfl

theorem named?_mem {r : Registry} {name : String} (h : r.named? name = some language) :
    language ∈ r.languages :=
  List.mem_of_find?_eq_some h

theorem languages_replaceExtensions (r : Registry) (name : String) (extensions : List String) :
    (r.replaceExtensions name extensions).languages = r.languages := by
  unfold replaceExtensions
  split
  · rfl
  · rfl

theorem get?_replaceExtensions {r : Registry} (hr : r.languages = standard.languages)
    (h : language ∈ standard.languages) (name : String) (extensions : List String) :
    (r.replaceExtensions name extensions).replaced.get? language.nameSpace =
      if language.goesBy name then some (extensions.map fun e => Text.lower (withoutDots e))
      else r.replaced.get? language.nameSpace := by
  have hnamed : r.named? name = standard.named? name := by rw [named?, named?, hr]
  unfold replaceExtensions
  rw [hnamed]
  cases hfound : standard.named? name with
  | none =>
    have hnot : language.goesBy name = false := by
      rw [← Bool.not_eq_true, ← named?_iff h, hfound]
      simp
    rw [if_neg (by simp [hnot])]
  | some other =>
    dsimp only
    rw [Dictionary.get?_insert]
    by_cases hname : language.goesBy name = true
    · have hother : language = other := by
        rw [(named?_iff h name).2 hname] at hfound
        exact Option.some.inj hfound
      rw [if_pos (by rw [hother]), if_pos hname]
      rfl
    · have hother : language.nameSpace ≠ other.nameSpace := by
        intro heq
        -- The name space belongs to one language only, which would go by the name.
        have hmem := named?_mem hfound
        have hself := (named?_iff hmem language.nameSpace).2 (by rw [heq]; exact goesBy_nameSpace _)
        rw [(named?_iff h _).2 (goesBy_nameSpace language)] at hself
        obtain rfl := Option.some.inj hself
        exact hname ((named?_iff h name).1 hfound)
      rw [if_neg hother, if_neg hname]

/-- The last of some entries whose key names a language. -/
def decisive? (language : Language) (entries : List (String × List String)) :
    Option (String × List String) :=
  (entries.filter fun e => language.goesBy e.1).getLast?

theorem get?_replaced_foldl (h : language ∈ standard.languages)
    (entries : List (String × List String)) (r : Registry)
    (hr : r.languages = standard.languages) :
    (entries.foldl (fun r e => r.replaceExtensions e.1 e.2) r).replaced.get? language.nameSpace =
      ((decisive? language entries).map fun e => e.2.map fun x => Text.lower (withoutDots x)).or
        (r.replaced.get? language.nameSpace) := by
  induction entries generalizing r with
  | nil => rfl
  | cons e rest ih =>
    rw [List.foldl_cons, ih _ ((languages_replaceExtensions r e.1 e.2).trans hr),
      get?_replaceExtensions hr h, decisive?, decisive?, List.filter_cons]
    by_cases hname : language.goesBy e.1 = true
    · rw [if_pos hname, if_pos hname, List.getLast?_cons]
      cases (rest.filter fun e => language.goesBy e.1).getLast? <;> rfl
    · rw [if_neg hname, if_neg hname]

theorem languages_foldl (entries : List (String × List String)) (r : Registry) :
    (entries.foldl (fun r e => r.replaceExtensions e.1 e.2) r).languages = r.languages := by
  induction entries generalizing r with
  | nil => rfl
  | cons e rest ih => rw [List.foldl_cons, ih, languages_replaceExtensions]

/-- The extensions of a language are those of the last key that names it, in lower case and without
dots in front. If there is no such key, they are its own. -/
theorem extensionsOf_withExtensions (h : language ∈ standard.languages)
    (d : Dictionary (List String)) :
    (withExtensions d).extensionsOf language.nameSpace =
      match decisive? language d.entries with
      | some e => e.2.map fun x => Text.lower (withoutDots x)
      | none => language.extensions := by
  have hnamed : (withExtensions d).named? language.nameSpace = some language := by
    rw [named?, withExtensions, languages_foldl]
    exact (named?_iff h _).2 (goesBy_nameSpace language)
  have hreplaced := get?_replaced_foldl h d.entries standard rfl
  rw [extensionsOf, hnamed, withExtensions, hreplaced]
  cases decisive? language d.entries <;> rfl

end Registry

/-! ## Runs -/

namespace RunPlan

variable {plan : RunPlan}

/-- The last key that names the language, if there is one, is its short name. -/
def DecidedByShortName (plan : RunPlan) : Prop :=
  ∀ e, Registry.decisive? plan.language plan.settings.extensions.entries = some e →
    e.1 = plan.language.nameSpace

theorem map_lower_extensions {language : Language} (h : language ∈ Registry.standard.languages) :
    language.extensions.map Text.lower = language.extensions := by
  rcases Registry.mem_languages.1 h with rfl | rfl | rfl
  · decide
  · decide
  · decide

theorem extensionsOf_eq_map (hlang : plan.language ∈ Registry.standard.languages)
    (hkeys : plan.DecidedByShortName) :
    (Registry.withExtensions plan.settings.extensions).extensionsOf plan.language.nameSpace =
      plan.extensions.map Text.lower := by
  rw [Registry.extensionsOf_withExtensions hlang, extensions]
  cases hlast : Registry.decisive? plan.language plan.settings.extensions.entries with
  | none =>
    have hnone : plan.settings.extensions.get? plan.language.nameSpace = none := by
      rw [Registry.decisive?, List.getLast?_eq_none_iff, List.filter_eq_nil_iff] at hlast
      rw [Option.eq_none_iff_forall_ne_some]
      intro extensions hsome
      exact hlast _ (mem_of_lookup hsome) (Registry.goesBy_nameSpace plan.language)
    rw [hnone]
    exact (map_lower_extensions hlang).symm
  | some e =>
    have hsome : plan.settings.extensions.get? plan.language.nameSpace = some e.2 := by
      rw [← hkeys e hlast]
      exact plan.settings.extensions.get?_of_mem
        (List.mem_filter.1 (List.mem_of_getLast? hlast)).1
    rw [hsome, List.map_map]
    rfl

theorem endsWithExtension_iff {extensions : List String} {name : String} :
    ScanFilter.endsWithExtension extensions name = true ↔
      ∃ e, Path.extensionOf? name = some e ∧
        ∃ a ∈ extensions, Text.lowerAsciiText a = Text.lowerAsciiText e := by
  simp only [ScanFilter.endsWithExtension, FileName.extension?_ofText, Option.any_eq_true,
    List.any_eq_true, Text.equalIgnoringAsciiCase_iff]

/-- The extensions that a registry lists for a language, against those of the files of a run.

A registry lists those of the last key that names the language. If that key is the short name, or
if there is none, every file that a run looks at has a listed extension. The other way round, a
run looks at each file with a listed extension, unless letters outside ASCII differ in case. -/
theorem extensions_of_registry (plan : RunPlan)
    (hlang : plan.language ∈ Registry.standard.languages) (name : String) :
    let listed :=
      (Registry.withExtensions plan.settings.extensions).extensionsOf plan.language.nameSpace
    let passes := ScanFilter.endsWithExtension plan.extensions name = true
    let isListed := ∃ e, Path.extensionOf? name = some e ∧ Text.lower e ∈ listed
    (listed =
      match Registry.decisive? plan.language plan.settings.extensions.entries with
      | some e => e.2.map fun x => Text.lower (withoutDots x)
      | none => plan.language.extensions) ∧
    (plan.DecidedByShortName → passes → isListed) ∧
    (plan.DecidedByShortName →
      (∀ x, Path.extensionOf? name = some x ∨ x ∈ plan.extensions → Text.PlainCase x) →
      isListed → passes) := by
  intro listed passes isListed
  refine ⟨Registry.extensionsOf_withExtensions hlang _, fun hkeys hpasses => ?_,
    fun hkeys hplain hlisted => ?_⟩
  · obtain ⟨e, he, a, ha, hcase⟩ := endsWithExtension_iff.1 hpasses
    refine ⟨e, he, ?_⟩
    rw [show listed = _ from extensionsOf_eq_map hlang hkeys, ← Text.lower_lowerAsciiText, ← hcase,
      Text.lower_lowerAsciiText]
    exact List.mem_map_of_mem ha
  · obtain ⟨e, he, hmem⟩ := hlisted
    rw [show listed = _ from extensionsOf_eq_map hlang hkeys] at hmem
    obtain ⟨a, ha, hlower⟩ := List.mem_map.1 hmem
    refine endsWithExtension_iff.2 ⟨e, he, a, ha, ?_⟩
    rw [← hplain a (.inr ha), hlower, hplain e (.inl he)]

/-- The settings have an alias and, after it, the short name. -/
theorem extensions_of_registry_ts :
    let plan : RunPlan :=
      { language := .typeScript
        settings := { extensions := .ofList [("js", ["cjs"]), ("ts", [".MTS"])] } }
    plan.language ∈ Registry.standard.languages ∧ plan.DecidedByShortName ∧
      (∀ x, Path.extensionOf? "a.mts" = some x ∨ x ∈ plan.extensions → Text.PlainCase x) ∧
      (Registry.withExtensions plan.settings.extensions).extensionsOf "ts" = ["mts"] ∧
      ScanFilter.endsWithExtension plan.extensions "a.mts" = true := by
  intro plan
  have hlang : plan.language ∈ Registry.standard.languages :=
    Registry.mem_languages.2 (.inr (.inr rfl))
  have hkeys : plan.DecidedByShortName := by
    intro e he
    obtain rfl : ("ts", [".MTS"]) = e := Option.some.inj he
    rfl
  have hplain : ∀ x, Path.extensionOf? "a.mts" = some x ∨ x ∈ plan.extensions →
      Text.PlainCase x := by
    rintro x (hx | hx)
    · obtain rfl : "mts" = x := Option.some.inj hx
      decide
    · obtain rfl : x = "MTS" := List.mem_singleton.1 hx
      decide
  obtain ⟨hlisted, -, hpasses⟩ := plan.extensions_of_registry hlang "a.mts"
  refine ⟨hlang, hkeys, hplain, hlisted, hpasses hkeys hplain ⟨"mts", rfl, ?_⟩⟩
  rw [hlisted]
  decide

/-- A registry takes an alias for the language, and a small letter outside ASCII for its capital. A
run does neither. -/
theorem extensions_apart :
    (let plan : RunPlan :=
      { language := .typeScript
        settings := { extensions := .ofList [("typescript", ["mts"])] } }
    Path.extensionOf? "a.mts" = some "mts" ∧
      Text.lower "mts" ∈
        (Registry.withExtensions plan.settings.extensions).extensionsOf plan.language.nameSpace ∧
      ScanFilter.endsWithExtension plan.extensions "a.mts" = false) ∧
    (let plan : RunPlan :=
      { language := .php
        settings := { extensions := .ofList [("php", ["É"])] } }
    Path.extensionOf? "a.é" = some "é" ∧
      Text.lower "é" ∈
        (Registry.withExtensions plan.settings.extensions).extensionsOf plan.language.nameSpace ∧
      ScanFilter.endsWithExtension plan.extensions "a.é" = false) := by
  refine ⟨⟨by decide, ?_, by decide⟩, by decide, ?_, by decide⟩
  · decide
  · decide

end RunPlan

end FactStream
