import FactStream.Proofs.Extensions
import Mathlib.Data.List.Induction

/-!
# Whose an extension is

A registry keeps two tables: which language an extension leads to, and which extensions a language
lists. A call of `Registry.replaceExtensions` changes both. The extensions it gives to a language
now lead there, and everything else that led to the language leads nowhere, also what the language
once took over from another one that still lists it.

So an extension leads to the language that was given it last, if that one still lists it
(`Registry.get?_owners_afterCalls`). If no language is given extensions twice, every listed
extension leads somewhere (`Registry.settled_afterCalls`). Otherwise it need not, as
`Registry.listed_without_owner` shows.

Main statement: `Registry.owner_of_extension`.
-/

namespace FactStream

theorem Dictionary.get?_filter_value {α : Type} (d : Dictionary α) (p : α → Bool) (k : String) :
    (d.filter fun _ a => p a).get? k = (d.get? k).filter p := by
  obtain ⟨entries, ascending⟩ := d
  show (entries.filter fun e => p e.2).lookup k = (entries.lookup k).filter p
  induction entries with
  | nil => rfl
  | cons head rest ih =>
    obtain ⟨hhead, hrest⟩ := List.pairwise_cons.1 ascending
    obtain ⟨k', a⟩ := head
    by_cases hk : k = k'
    · subst hk
      -- The key comes only once, so it is gone if this entry is.
      have hgone : rest.lookup k = none := lookup_eq_none_of_lt fun e he => hhead e he
      cases hp : p a with
      | true => simp [hp, Option.filter]
      | false => simp [hp, ih hrest, hgone, Option.filter]
    · cases hp : p a with
      | true => simp [hp, List.lookup_cons, beq_eq_false_iff_ne.2 hk, ih hrest]
      | false => simp [hp, List.lookup_cons, beq_eq_false_iff_ne.2 hk, ih hrest]

namespace Registry

/-- The registry after some calls that each give extensions to the language with a name.
`withExtensions` makes one call for each entry. -/
def afterCalls (calls : List (String × List String)) : Registry :=
  calls.foldl (fun r c => r.replaceExtensions c.1 c.2) standard

/-- Extensions that a language is given. -/
structure Grant where
  language : Language
  extensions : List String

/-- The extensions of a call as a registry keeps them. -/
def normalForm (extensions : List String) : List String :=
  extensions.map fun e => Text.lower (withoutDots e)

/-- What some calls give, one after the other. A call gives nothing if no language has the name. -/
def grants (calls : List (String × List String)) : List Grant :=
  calls.filterMap fun c => (standard.named? c.1).map fun language => ⟨language, normalForm c.2⟩

/-- What the languages have at first: each its own extensions. -/
def ownGrants : List Grant :=
  standard.languages.map fun l => ⟨l, l.extensions⟩

/-- The language that was last given an extension. -/
def lastGiven? (given : List Grant) (e : String) : Option Language :=
  (given.reverse.find? fun g => g.extensions.contains e).map (·.language)

theorem lastGiven?_concat (given : List Grant) (g : Grant) (e : String) :
    lastGiven? (given ++ [g]) e =
      if e ∈ g.extensions then some g.language else lastGiven? given e := by
  rw [lastGiven?, List.reverse_append, List.reverse_singleton, List.singleton_append,
    List.find?_cons]
  by_cases he : e ∈ g.extensions
  · simp [he]
  · simp [he, lastGiven?]

theorem exists_grant_of_lastGiven? {given : List Grant} {e : String} {language : Language}
    (h : lastGiven? given e = some language) :
    ∃ g ∈ given, g.language = language ∧ e ∈ g.extensions := by
  obtain ⟨g, hg, hlanguage⟩ := Option.map_eq_some_iff.1 h
  refine ⟨g, List.mem_reverse.1 (List.mem_of_find?_eq_some hg), hlanguage, ?_⟩
  have hcontains := List.find?_some hg
  exact List.contains_iff_mem.1 hcontains

theorem exists_lastGiven? {given : List Grant} {e : String} {g : Grant} (hg : g ∈ given)
    (he : e ∈ g.extensions) : ∃ language, lastGiven? given e = some language := by
  have hsome : (given.reverse.find? fun g => g.extensions.contains e).isSome := by
    rw [List.find?_isSome]
    exact ⟨g, List.mem_reverse.2 hg, List.contains_iff_mem.2 he⟩
  obtain ⟨found, hfound⟩ := Option.isSome_iff_exists.1 hsome
  exact ⟨found.language, by rw [lastGiven?, hfound]; rfl⟩

theorem language_mem_of_grant {calls : List (String × List String)} {g : Grant}
    (h : g ∈ ownGrants ++ grants calls) : g.language ∈ standard.languages := by
  rcases List.mem_append.1 h with hown | hgiven
  · obtain ⟨l, hl, rfl⟩ := List.mem_map.1 hown
    exact hl
  · obtain ⟨call, -, hcall⟩ := List.mem_filterMap.1 hgiven
    obtain ⟨l, hl, rfl⟩ := Option.map_eq_some_iff.1 hcall
    exact named?_mem hl

/-! ## At first -/

theorem get?_foldl_give (language : Language) (extensions : List String)
    (owners : Dictionary Language) (e : String) :
    (extensions.foldl (fun owners x => owners.insert x language) owners).get? e =
      if e ∈ extensions then some language else owners.get? e := by
  induction extensions generalizing owners with
  | nil => simp
  | cons x rest ih =>
    rw [List.foldl_cons, ih, Dictionary.get?_insert]
    by_cases he : e ∈ rest
    · simp [he]
    · simp [he]

/-- In a table that is filled up grant by grant, an extension leads to the one that got it last. -/
theorem get?_ofList_grants (given : List Grant) (e : String) :
    (Dictionary.ofList (given.flatMap fun g => g.extensions.map fun x => (x, g.language))).get? e =
      lastGiven? given e := by
  induction given using List.reverseRecOn with
  | nil => rfl
  | append_singleton given g ih =>
    rw [lastGiven?_concat, ← ih, Dictionary.ofList, List.flatMap_append, List.foldl_append,
      List.flatMap_singleton, List.foldl_map]
    exact get?_foldl_give g.language g.extensions _ e

theorem get?_owners_standard (e : String) : standard.owners.get? e = lastGiven? ownGrants e := by
  rw [← get?_ofList_grants]
  rfl

theorem extensionsOf_standard {language : Language} (h : language ∈ standard.languages) :
    standard.extensionsOf language.nameSpace = language.extensions := by
  rcases mem_languages.1 h with rfl | rfl | rfl
  · rfl
  · rfl
  · rfl

theorem eq_of_mem_extensions {l m : Language} (hl : l ∈ standard.languages)
    (hm : m ∈ standard.languages) {e : String} (hle : e ∈ l.extensions) (hme : e ∈ m.extensions) :
    l.nameSpace = m.nameSpace := by
  have hapart : ∀ x ∈ l.extensions, x ∈ m.extensions → l.nameSpace = m.nameSpace := by
    rcases mem_languages.1 hl with rfl | rfl | rfl <;>
      rcases mem_languages.1 hm with rfl | rfl | rfl <;> decide
  exact hapart e hle hme

/-! ## One call -/

section Call

variable {r : Registry} {name : String} {language : Language} {extensions : List String}

/-- What a call gives leads to its language, and nothing else does any more. -/
theorem get?_owners_replaceExtensions (h : r.named? name = some language) (e : String) :
    (r.replaceExtensions name extensions).owners.get? e =
      if e ∈ normalForm extensions then some language
      else (r.owners.get? e).filter fun l => l.nameSpace != language.nameSpace := by
  rw [replaceExtensions, h]
  dsimp only
  rw [get?_foldl_give, Dictionary.get?_filter_value]
  rfl

theorem extensionsOf_replaceExtensions (h : r.named? name = some language) (short : String) :
    (r.replaceExtensions name extensions).extensionsOf short =
      if short = language.nameSpace then normalForm extensions else r.extensionsOf short := by
  rw [replaceExtensions, h]
  dsimp only [extensionsOf]
  rw [Dictionary.get?_insert]
  by_cases hshort : short = language.nameSpace
  · rw [if_pos hshort, if_pos hshort]
    rfl
  · rw [if_neg hshort, if_neg hshort]
    rfl

end Call

/-! ## All calls -/

theorem languages_afterCalls (calls : List (String × List String)) :
    (afterCalls calls).languages = standard.languages :=
  languages_foldl calls standard

theorem afterCalls_induction {P : List Grant → Registry → Prop} (first : P [] standard)
    (next : ∀ given r name language extensions, r.named? name = some language → P given r →
      P (given ++ [⟨language, normalForm extensions⟩]) (r.replaceExtensions name extensions))
    (calls : List (String × List String)) : P (grants calls) (afterCalls calls) := by
  induction calls using List.reverseRecOn with
  | nil => exact first
  | append_singleton calls call ih =>
    have hnamed : (afterCalls calls).named? call.1 = standard.named? call.1 := by
      rw [named?, named?, languages_afterCalls]
    have hafter : afterCalls (calls ++ [call]) =
        (afterCalls calls).replaceExtensions call.1 call.2 := by
      rw [afterCalls, List.foldl_append]
      rfl
    rw [hafter, grants, List.filterMap_append, ← grants]
    cases hname : standard.named? call.1 with
    | none =>
      rw [replaceExtensions, hnamed, hname]
      simpa [hname] using ih
    | some language =>
      simpa [hname] using next _ _ _ language call.2 (hnamed.trans hname) ih

/-- An extension leads to the language that was given it last, if that one still lists it. -/
theorem get?_owners_afterCalls (calls : List (String × List String)) (e : String)
    (language : Language) :
    (afterCalls calls).owners.get? e = some language ↔
      lastGiven? (ownGrants ++ grants calls) e = some language ∧
        e ∈ (afterCalls calls).extensionsOf language.nameSpace := by
  refine afterCalls_induction (P := fun given r => r.owners.get? e = some language ↔
    lastGiven? (ownGrants ++ given) e = some language ∧ e ∈ r.extensionsOf language.nameSpace)
    ?_ ?_ calls
  · rw [get?_owners_standard, List.append_nil]
    refine ⟨fun h => ⟨h, ?_⟩, And.left⟩
    obtain ⟨g, hg, rfl, he⟩ := exists_grant_of_lastGiven? h
    obtain ⟨l, hl, rfl⟩ := List.mem_map.1 hg
    rwa [extensionsOf_standard hl]
  · intro given r name other extensions hname ih
    rw [← List.append_assoc, lastGiven?_concat, get?_owners_replaceExtensions hname,
      extensionsOf_replaceExtensions hname]
    by_cases he : e ∈ normalForm extensions
    · rw [if_pos he, if_pos he]
      refine ⟨fun h => ⟨h, ?_⟩, And.left⟩
      obtain rfl := Option.some.inj h
      rwa [if_pos rfl]
    · rw [if_neg he, if_neg he, Option.filter_eq_some_iff, bne_iff_ne, ih]
      by_cases hother : language.nameSpace = other.nameSpace
      · simp [hother, he]
      · simp [hother]

/-- An extension that is listed leads somewhere. As long as it leads to a language that was given
nothing, no other language lists it. -/
structure Settled (e : String) (given : List Grant) (r : Registry) : Prop where
  owned : ∀ l ∈ standard.languages, e ∈ r.extensionsOf l.nameSpace →
    ∃ m, r.owners.get? e = some m
  alone : ∀ m, r.owners.get? e = some m → m.nameSpace ∉ given.map (·.language.nameSpace) →
    ∀ l ∈ standard.languages, e ∈ r.extensionsOf l.nameSpace → l.nameSpace = m.nameSpace

theorem settled_standard (e : String) : Settled e [] standard := by
  refine ⟨fun l hl he => ?_, fun m hm _ l hl he => ?_⟩
  · rw [extensionsOf_standard hl] at he
    rw [get?_owners_standard]
    exact exists_lastGiven? (List.mem_map_of_mem hl) he
  · rw [extensionsOf_standard hl] at he
    rw [get?_owners_standard] at hm
    obtain ⟨g, hg, rfl, hge⟩ := exists_grant_of_lastGiven? hm
    obtain ⟨other, hother, rfl⟩ := List.mem_map.1 hg
    exact eq_of_mem_extensions hl hother he hge

theorem Settled.replaceExtensions {e : String} {given : List Grant} {r : Registry} {name : String}
    {language : Language} {extensions : List String} (h : Settled e given r)
    (hname : r.named? name = some language)
    (hnew : language.nameSpace ∉ given.map (·.language.nameSpace)) :
    Settled e (given ++ [⟨language, normalForm extensions⟩])
      (r.replaceExtensions name extensions) := by
  -- What another language lists, it has listed before.
  have hbefore : ∀ l : Language, e ∉ normalForm extensions →
      e ∈ (r.replaceExtensions name extensions).extensionsOf l.nameSpace →
      l.nameSpace ≠ language.nameSpace ∧ e ∈ r.extensionsOf l.nameSpace := by
    intro l he hlisted
    rw [extensionsOf_replaceExtensions hname] at hlisted
    by_cases hl : l.nameSpace = language.nameSpace
    · rw [if_pos hl] at hlisted
      exact absurd hlisted he
    · rw [if_neg hl] at hlisted
      exact ⟨hl, hlisted⟩
  refine ⟨fun l hl hlisted => ?_, fun m hm hgiven l hl hlisted => ?_⟩
  · rw [get?_owners_replaceExtensions hname]
    by_cases he : e ∈ normalForm extensions
    · exact ⟨language, if_pos he⟩
    · obtain ⟨hne, hlisted⟩ := hbefore l he hlisted
      obtain ⟨m, hm⟩ := h.owned l hl hlisted
      have hkept : m.nameSpace ≠ language.nameSpace := by
        intro heq
        exact hne ((h.alone m hm (heq ▸ hnew) l hl hlisted).trans heq)
      refine ⟨m, ?_⟩
      rw [if_neg he, hm, Option.filter_eq_some_iff]
      exact ⟨rfl, bne_iff_ne.2 hkept⟩
  · rw [List.map_append, List.mem_append, not_or] at hgiven
    rw [get?_owners_replaceExtensions hname] at hm
    by_cases he : e ∈ normalForm extensions
    · rw [if_pos he] at hm
      obtain rfl := Option.some.inj hm
      exact absurd (List.mem_singleton.2 rfl) hgiven.2
    · rw [if_neg he, Option.filter_eq_some_iff] at hm
      exact h.alone m hm.1 hgiven.1 l hl (hbefore l he hlisted).2

theorem settled_afterCalls {calls : List (String × List String)}
    (h : ((grants calls).map (·.language.nameSpace)).Nodup) (e : String) :
    Settled e (grants calls) (afterCalls calls) := by
  refine afterCalls_induction
    (P := fun given r => (given.map (·.language.nameSpace)).Nodup → Settled e given r)
    (fun _ => settled_standard e) ?_ calls h
  intro given r name language extensions hname ih hnodup
  rw [List.map_append, List.nodup_append] at hnodup
  obtain ⟨hnodup, -, hnew⟩ := hnodup
  refine (ih hnodup).replaceExtensions hname fun hmem => ?_
  exact hnew _ hmem _ (List.mem_singleton.2 rfl) rfl

/-- After any calls, an extension in lower case leads to the language that was given it last, if
that one still lists it, and otherwise nowhere. So it is listed for the language it leads to. Every
listed extension leads somewhere if no language is given extensions twice. -/
theorem owner_of_extension (calls : List (String × List String)) (e : String)
    (hlower : Text.lower e = e) :
    let r := afterCalls calls
    (∀ l, r.forExtension? e = some l ↔
      lastGiven? (ownGrants ++ grants calls) e = some l ∧ e ∈ r.extensionsOf l.nameSpace) ∧
    (∀ l, r.forExtension? e = some l → l ∈ r.languages ∧ e ∈ r.extensionsOf l.nameSpace) ∧
    (((grants calls).map (·.language.nameSpace)).Nodup →
      ((∃ l, r.forExtension? e = some l) ↔ ∃ l ∈ r.languages, e ∈ r.extensionsOf l.nameSpace)) := by
  intro r
  have howner : ∀ l, r.forExtension? e = some l ↔
      lastGiven? (ownGrants ++ grants calls) e = some l ∧ e ∈ r.extensionsOf l.nameSpace := by
    intro l
    rw [forExtension?, hlower]
    exact get?_owners_afterCalls calls e l
  have hlisted : ∀ l, r.forExtension? e = some l →
      l ∈ r.languages ∧ e ∈ r.extensionsOf l.nameSpace := by
    intro l h
    obtain ⟨hlast, he⟩ := (howner l).1 h
    refine ⟨?_, he⟩
    obtain ⟨g, hg, rfl, -⟩ := exists_grant_of_lastGiven? hlast
    rw [show r.languages = _ from languages_afterCalls calls]
    exact language_mem_of_grant hg
  refine ⟨howner, hlisted, fun hnodup => ⟨?_, ?_⟩⟩
  · rintro ⟨l, hl⟩
    exact ⟨l, hlisted l hl⟩
  · rintro ⟨l, hl, he⟩
    rw [show r.languages = _ from languages_afterCalls calls] at hl
    rw [forExtension?, hlower]
    exact (settled_afterCalls hnodup e).owned l hl he

/-- An extension that one language takes over from another. -/
theorem owner_of_extension_takenOver :
    let r := afterCalls [("js", [".CS", "ts"]), ("php", ["inc"])]
    Text.lower "cs" = "cs" ∧ r.extensionsOf "csharp" = ["cs"] ∧
      r.extensionsOf "ts" = ["cs", "ts"] ∧ r.forExtension? "cs" = some .typeScript ∧
      ((∃ l, r.forExtension? "cs" = some l) ↔ ∃ l ∈ r.languages, "cs" ∈ r.extensionsOf l.nameSpace)
    := by
  intro r
  have hlower : Text.lower "cs" = "cs" := by decide
  obtain ⟨howner, -, hlisted⟩ :=
    owner_of_extension [("js", [".CS", "ts"]), ("php", ["inc"])] "cs" hlower
  refine ⟨hlower, by decide, by decide, (howner .typeScript).2 ⟨rfl, by decide⟩, hlisted ?_⟩
  decide

/-- A language takes over an extension and is then given others. The extension is still listed for
the language that had it first, and leads nowhere. Settings do this with two names for one
language. -/
theorem listed_without_owner :
    (let r := afterCalls [("ts", ["cs"]), ("ts", ["ts"])]
    Text.lower "cs" = "cs" ∧ Language.cSharp ∈ r.languages ∧
      "cs" ∈ r.extensionsOf Language.cSharp.nameSpace ∧ r.forExtension? "cs" = none) ∧
    (let r := withExtensions (.ofList [("js", ["cs"]), ("ts", ["ts"])])
    Language.cSharp ∈ r.languages ∧ "cs" ∈ r.extensionsOf Language.cSharp.nameSpace ∧
      r.forExtension? "cs" = none) := by
  refine ⟨⟨by decide, List.mem_cons_self, by decide, rfl⟩, List.mem_cons_self, by decide, rfl⟩

end Registry

end FactStream
