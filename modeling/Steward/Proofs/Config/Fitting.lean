import Mathlib.Tactic.Push
import Steward.Config.Template

/-!
# What fitting does to a document

A document is known by what stands at its paths, which lead from key to key through mappings.  Where
a document and a template both hold a mapping, the fitted document has the keys of the template;
what it had under them is fitted in turn, or kept if it is no mapping on both sides, and what it had
not comes from the template.

Fitting says that it changed something exactly if it did, and a document that was fitted is not
changed by fitting it again (`Template.fit_fit`).

Fitting goes by what a document says, whatever of it is one and the same mapping.  It is what
bringing a document in step with a template comes to where no mapping stands at two places.
-/

namespace Steward

open Yaml

namespace Yaml

theorem Scalar.sameKey_iff {left right : Scalar} :
    left.sameKey right = true ↔ left.asKey = right.asKey := by
  exact beq_iff_eq

namespace Doc

variable {key other : Scalar} {entries : List (Scalar × Doc)} {value : Doc}

/-! ## Lookups -/

@[simp]
theorem lookup_nil (key : Scalar) : lookup key [] = none := by
  rfl

theorem lookup_cons (key other : Scalar) (value : Doc) (entries : List (Scalar × Doc)) :
    lookup key ((other, value) :: entries) =
      if other.sameKey key then some value else lookup key entries := by
  rw [lookup, List.find?_cons]
  split <;> rename_i same <;> simp [same, lookup]

theorem lookup_append (key : Scalar) (first rest : List (Scalar × Doc)) :
    lookup key (first ++ rest) = (lookup key first).or (lookup key rest) := by
  rw [lookup, List.find?_append, Option.map_or, lookup, lookup]

/-- Keys that are the same are answered the same. -/
theorem lookup_of_sameKey (same : other.sameKey key = true) (entries : List (Scalar × Doc)) :
    lookup other entries = lookup key entries := by
  have alike : (fun entry : Scalar × Doc => entry.1.sameKey other) =
      fun entry => entry.1.sameKey key := by
    funext entry
    rw [Bool.eq_iff_iff, Scalar.sameKey_iff, Scalar.sameKey_iff, Scalar.sameKey_iff.1 same]
  rw [lookup, lookup, alike]

theorem lookup_isSome_of_mem {entry : Scalar × Doc} (isEntry : entry ∈ entries) :
    (lookup entry.1 entries).isSome = true := by
  rw [lookup, Option.isSome_map, List.find?_isSome]
  exact ⟨entry, isEntry, Scalar.sameKey_iff.2 rfl⟩

theorem exists_mem_of_lookup (found : lookup key entries = some value) :
    ∃ entry ∈ entries, entry.2 = value := by
  rcases Option.map_eq_some_iff.1 found with ⟨entry, isFound, isUnder⟩
  exact ⟨entry, List.mem_of_find?_eq_some isFound, isUnder⟩

/-! ## Paths -/

/-- What stands at a path of keys. -/
def at? : List Scalar → Doc → Option Doc
  | [], document => some document
  | key :: rest, .map _ entries => (lookup key entries).bind (at? rest)
  | _ :: _, _ => none

/-- A document in which nothing stands inside of itself, and whose mappings have each key once. -/
inductive IsProper : Doc → Prop where
  | scalar (value : Scalar) : IsProper (.scalar value)
  | list {identity : Identity} {items : List Doc} (inside : ∀ item ∈ items, IsProper item) :
      IsProper (.list identity items)
  | set (identity : Identity) (members : List Scalar) : IsProper (.set identity members)
  | map {identity : Identity} {entries : List (Scalar × Doc)}
      (once : entries.Pairwise fun one other => ¬ one.1.sameKey other.1 = true)
      (inside : ∀ entry ∈ entries, IsProper entry.2) : IsProper (.map identity entries)

/-- In a mapping that has each key once, each entry is the one that its key answers. -/
theorem lookup_of_mem (once : entries.Pairwise fun one other => ¬ one.1.sameKey other.1 = true)
    {entry : Scalar × Doc} (isEntry : entry ∈ entries) :
    lookup entry.1 entries = some entry.2 := by
  induction entries with
  | nil =>
      cases isEntry
  | cons first rest ih =>
      rcases List.pairwise_cons.1 once with ⟨apart, once⟩
      rw [lookup_cons]
      rcases List.mem_cons.1 isEntry with rfl | isLater
      · rw [if_pos (Scalar.sameKey_iff.2 rfl)]
      · rw [if_neg (apart entry isLater), ih once isLater]

end Doc

end Yaml

namespace Template

open Yaml.Doc

variable {template document wanted value : Doc} {identity : Identity}
  {entries wantedEntries : List (Scalar × Doc)} {key : Scalar}

/-! ## Fitting -/

/-- The entries of a template whose keys are not among others. -/
def missing (template entries : List (Scalar × Doc)) : List (Scalar × Doc) :=
  template.filter fun (key, _) => (Doc.lookup key entries).isNone

mutual

/-- A document with the keys of a template, at the top and inside, and whether that changed it.
Only mappings have keys. -/
def fit (template : Doc) : Doc → Doc × Bool
  | .map identity entries =>
    match template with
    | .map _ wanted =>
      let (kept, changed) := keep wanted entries
      let added := missing wanted kept
      (.map identity (kept ++ added), changed || !added.isEmpty)
    | _ => (.map identity entries, false)
  | other => (other, false)

/-- The entries that a template has too, each of them fitted, and whether that changed them. -/
def keep (template : List (Scalar × Doc)) : List (Scalar × Doc) → List (Scalar × Doc) × Bool
  | [] => ([], false)
  | (key, value) :: rest =>
    let (kept, changed) := keep template rest
    match Doc.lookup key template with
    | none => (kept, true)
    | some wanted =>
      let (fitted, inside) := fit wanted value
      ((key, fitted) :: kept, inside || changed)

end

/-! ## One mapping -/

theorem exists_of_isMap (isMapping : isMap document = true) :
    ∃ identity entries, document = .map identity entries := by
  cases document with
  | map identity entries =>
      exact ⟨identity, entries, rfl⟩
  | _ =>
      cases isMapping

/-- Where there is no mapping on both sides, the document is kept. -/
theorem fit_of_not_both (notBoth : ¬ (isMap template = true ∧ isMap document = true)) :
    fit template document = (document, false) := by
  cases document with
  | map =>
      cases template with
      | map =>
          exact absurd ⟨rfl, rfl⟩ notBoth
      | _ =>
          rfl
  | _ =>
      rfl

/-- The entries that a mapping has when it was fitted. -/
def fitEntries (wanted entries : List (Scalar × Doc)) : List (Scalar × Doc) :=
  (keep wanted entries).1 ++ missing wanted (keep wanted entries).1

theorem fit_map (templateIdentity : Identity) (wanted : List (Scalar × Doc)) (identity : Identity)
    (entries : List (Scalar × Doc)) :
    fit (.map templateIdentity wanted) (.map identity entries) =
      (.map identity (fitEntries wanted entries),
        (keep wanted entries).2 || !(missing wanted (keep wanted entries).1).isEmpty) := by
  rw [fit]
  rfl

theorem keep_cons (wanted : List (Scalar × Doc)) (key : Scalar) (value : Doc)
    (rest : List (Scalar × Doc)) :
    keep wanted ((key, value) :: rest) =
      match Doc.lookup key wanted with
      | none => ((keep wanted rest).1, true)
      | some under =>
        ((key, (fit under value).1) :: (keep wanted rest).1,
          (fit under value).2 || (keep wanted rest).2) := by
  exact keep.eq_2 wanted key value rest

theorem lookup_keep (key : Scalar) (wanted entries : List (Scalar × Doc)) :
    lookup key (keep wanted entries).1 = (lookup key entries).bind fun value =>
      (lookup key wanted).map fun under => (fit under value).1 := by
  induction entries with
  | nil =>
      rfl
  | cons entry rest ih =>
      rcases entry with ⟨other, value⟩
      rw [keep_cons, lookup_cons]
      by_cases same : other.sameKey key = true
      · rw [lookup_of_sameKey same, if_pos same]
        cases found : lookup key wanted with
        | none =>
            rw [found] at ih
            dsimp only
            rw [ih]
            cases lookup key rest <;> rfl
        | some under =>
            dsimp only
            rw [lookup_cons, if_pos same]
            rfl
      · rw [if_neg same]
        cases lookup other wanted with
        | none =>
            exact ih
        | some under =>
            dsimp only
            rw [lookup_cons, if_neg same, ih]

theorem lookup_missing (key : Scalar) (wanted entries : List (Scalar × Doc)) :
    lookup key (missing wanted entries) =
      if (lookup key entries).isNone then lookup key wanted else none := by
  rw [missing]
  induction wanted with
  | nil =>
      simp
  | cons entry rest ih =>
      rcases entry with ⟨other, value⟩
      rw [List.filter_cons, lookup_cons]
      dsimp only
      by_cases same : other.sameKey key = true
      · simp only [lookup_of_sameKey same, if_pos same]
        by_cases isMissing : (lookup key entries).isNone = true
        · rw [if_pos isMissing, if_pos isMissing, lookup_cons, if_pos same]
        · rw [if_neg isMissing, if_neg isMissing, ih, if_neg isMissing]
      · rw [if_neg same]
        split
        · rw [lookup_cons, if_neg same]
          exact ih
        · exact ih

/-- Under each key of the template the fitted mapping has what it had, fitted in turn, or else what
the template has; under other keys it has nothing. -/
theorem lookup_fitEntries (key : Scalar) (wanted entries : List (Scalar × Doc)) :
    lookup key (fitEntries wanted entries) = (lookup key wanted).map fun under =>
      ((lookup key entries).map fun value => (fit under value).1).getD under := by
  rw [fitEntries, lookup_append, lookup_missing, lookup_keep]
  cases lookup key entries <;> cases lookup key wanted <;> rfl

/-! ## What stands at the paths -/

theorem at?_map (key : Scalar) (rest : List Scalar) (identity : Identity)
    (entries : List (Scalar × Doc)) :
    at? (key :: rest) (.map identity entries) = (lookup key entries).bind (at? rest) := by
  rfl

theorem at?_append (path rest : List Scalar) (document : Doc) :
    at? (path ++ rest) document = (at? path document).bind (at? rest) := by
  induction path generalizing document with
  | nil =>
      rfl
  | cons key path ih =>
      cases document with
      | map identity entries =>
          rw [List.cons_append, at?_map, at?_map, Option.bind_assoc]
          congr 1
          funext inside
          exact ih inside
      | _ =>
          rfl

/-- Where the template and the document both have something, the fitted document has the one fitted
under the other. -/
theorem at?_fit {path : List Scalar} (inTemplate : template.at? path = some wanted)
    (inDocument : document.at? path = some value) :
    (fit template document).1.at? path = some (fit wanted value).1 := by
  induction path generalizing template document with
  | nil =>
      cases inTemplate
      cases inDocument
      rfl
  | cons key rest ih =>
      cases template with
      | map templateIdentity wantedEntries =>
          cases document with
          | map identity entries =>
              rcases Option.bind_eq_some_iff.1 inTemplate with ⟨under, wantsKey, inTemplate⟩
              rcases Option.bind_eq_some_iff.1 inDocument with ⟨inside, hasKey, inDocument⟩
              rw [fit_map, at?_map, lookup_fitEntries, wantsKey, hasKey]
              exact ih inTemplate inDocument
          | _ =>
              cases inDocument
      | _ =>
          cases inTemplate

/-! ## What fitting says it changed -/

/-- Keeping entries changes them where a key is not in the template, or where what stands under a
key is changed by fitting. -/
theorem keep_changed_iff :
    (keep wantedEntries entries).2 = true ↔
      ∃ entry ∈ entries, ∀ under, lookup entry.1 wantedEntries = some under →
        (fit under entry.2).2 = true := by
  induction entries with
  | nil =>
      simp [keep]
  | cons entry rest ih =>
      rcases entry with ⟨key, value⟩
      rw [keep_cons]
      cases found : lookup key wantedEntries with
      | none =>
          simp [found]
      | some under =>
          simp [found, ih]

theorem mem_missing {entry : Scalar × Doc} :
    entry ∈ missing wantedEntries entries ↔
      entry ∈ wantedEntries ∧ lookup entry.1 entries = none := by
  rw [missing, List.mem_filter]
  exact and_congr_right fun _ => Option.isNone_iff_eq_none

theorem missing_eq_nil_iff :
    missing wantedEntries entries = [] ↔
      ∀ entry ∈ wantedEntries, (lookup entry.1 entries).isSome = true := by
  rw [missing, List.filter_eq_nil_iff]
  simp only [Bool.not_eq_true, Option.isNone_eq_false_iff]

/-- Nothing that a mapping keeps is missing, and what it does not have is missing after that too. -/
theorem missing_keep_eq_nil_iff :
    missing wantedEntries (keep wantedEntries entries).1 = [] ↔
      ∀ entry ∈ wantedEntries, (lookup entry.1 entries).isSome = true := by
  rw [missing_eq_nil_iff]
  refine forall₂_congr fun entry isEntry => ?_
  rw [lookup_keep]
  rcases Option.isSome_iff_exists.1 (lookup_isSome_of_mem isEntry) with ⟨under, wants⟩
  rw [wants]
  cases lookup entry.1 entries <;> rfl

/-- Fitting a mapping changes it where it has a key that the template has not, where it has not a
key of the template, and where what stands under a key is changed. -/
theorem fit_map_changed_iff {templateIdentity : Identity} :
    (fit (.map templateIdentity wantedEntries) (.map identity entries)).2 = true ↔
      (∃ entry ∈ entries, ∀ under, lookup entry.1 wantedEntries = some under →
        (fit under entry.2).2 = true) ∨
      ∃ entry ∈ wantedEntries, lookup entry.1 entries = none := by
  rw [fit_map, Bool.or_eq_true, keep_changed_iff, Bool.not_eq_true', List.isEmpty_eq_false_iff,
    ne_eq, missing_keep_eq_nil_iff]
  simp

/-- A mapping is as fitting leaves it if it has all keys of the template, and no others, and if what
stands under them is as fitting leaves it. -/
theorem fit_map_eq_self {templateIdentity : Identity}
    (fitted : ∀ entry ∈ entries, ∃ under, lookup entry.1 wantedEntries = some under ∧
      fit under entry.2 = (entry.2, false))
    (complete : ∀ entry ∈ wantedEntries, (lookup entry.1 entries).isSome = true) :
    fit (.map templateIdentity wantedEntries) (.map identity entries) =
      (.map identity entries, false) := by
  have kept : keep wantedEntries entries = (entries, false) := by
    clear complete
    induction entries with
    | nil =>
        rw [keep]
    | cons entry rest ih =>
        rcases entry with ⟨key, value⟩
        rcases fitted (key, value) List.mem_cons_self with ⟨under, wants, same⟩
        dsimp only at wants same
        rw [keep_cons, wants]
        dsimp only
        rw [same, ih fun entry isEntry => fitted entry (List.mem_cons_of_mem _ isEntry)]
        rfl
  rw [fit_map, fitEntries, kept, missing_eq_nil_iff.2 complete, List.append_nil]
  rfl

/-- A document is its own template. -/
theorem fit_self (once : document.IsProper) : fit document document = (document, false) := by
  induction once with
  | map once inside ih =>
      refine fit_map_eq_self (fun entry isEntry => ?_) fun entry isEntry => ?_
      · exact ⟨entry.2, lookup_of_mem once isEntry, ih entry isEntry⟩
      · exact lookup_isSome_of_mem isEntry
  | _ =>
      rfl

theorem mem_keep {entry : Scalar × Doc} (isEntry : entry ∈ (keep wantedEntries entries).1) :
    ∃ under value, (entry.1, value) ∈ entries ∧ lookup entry.1 wantedEntries = some under ∧
      entry.2 = (fit under value).1 := by
  induction entries with
  | nil =>
      simp [keep] at isEntry
  | cons first rest ih =>
      rcases first with ⟨key, value⟩
      rw [keep_cons] at isEntry
      have later (isLater : entry ∈ (keep wantedEntries rest).1) :
          ∃ under value', (entry.1, value') ∈ (key, value) :: rest ∧
            lookup entry.1 wantedEntries = some under ∧ entry.2 = (fit under value').1 := by
        rcases ih isLater with ⟨under, value', isEntry, wants, isFitted⟩
        exact ⟨under, value', List.mem_cons_of_mem _ isEntry, wants, isFitted⟩
      cases wants : lookup key wantedEntries with
      | none =>
          rw [wants] at isEntry
          exact later isEntry
      | some under =>
          rw [wants] at isEntry
          rcases List.mem_cons.1 isEntry with rfl | isLater
          · exact ⟨under, value, List.mem_cons_self, wants, rfl⟩
          · exact later isLater

/-- Fitting what was fitted changes nothing. -/
theorem fit_fit (documentProper : document.IsProper) (templateProper : template.IsProper) :
    fit template (fit template document).1 = ((fit template document).1, false) := by
  induction documentProper generalizing template with
  | @map identity entries once inside ih =>
      cases templateProper with
      | @map templateIdentity wantedEntries wantedOnce wantedInside =>
          rw [fit_map]
          refine fit_map_eq_self (fun entry isEntry => ?_) fun entry isEntry => ?_
          · rcases List.mem_append.1 isEntry with isKept | isAdded
            · rcases mem_keep isKept with ⟨under, value, isEntry, wants, isFitted⟩
              rcases exists_mem_of_lookup wants with ⟨wanted, isWanted, rfl⟩
              refine ⟨wanted.2, wants, ?_⟩
              rw [isFitted]
              exact ih (entry.1, value) isEntry (wantedInside wanted isWanted)
            · have isWanted := (mem_missing.1 isAdded).1
              exact ⟨entry.2, lookup_of_mem wantedOnce isWanted,
                fit_self (wantedInside entry isWanted)⟩
          · rw [lookup_fitEntries, Option.isSome_map]
            exact lookup_isSome_of_mem isEntry
      | _ =>
          rfl
  | _ =>
      rfl

/-- Where fitting says that it changed nothing, a mapping has the keys of the template, and nothing
under them is changed. -/
theorem fit_map_unchanged {templateIdentity : Identity}
    (unchanged : (fit (.map templateIdentity wantedEntries) (.map identity entries)).2 = false) :
    (∀ entry ∈ entries, ∃ under, lookup entry.1 wantedEntries = some under ∧
      (fit under entry.2).2 = false) ∧
    ∀ entry ∈ wantedEntries, (lookup entry.1 entries).isSome = true := by
  have notChanged := mt fit_map_changed_iff.2 (Bool.eq_false_iff.1 unchanged)
  push Not at notChanged
  refine ⟨fun entry isEntry => ?_, fun entry isEntry => ?_⟩
  · rcases notChanged.1 entry isEntry with ⟨under, wants, notChanged⟩
    exact ⟨under, wants, Bool.eq_false_iff.2 notChanged⟩
  · exact Option.isSome_iff_ne_none.2 (notChanged.2 entry isEntry)

/-- What fitting says it did not change it did not change. -/
theorem fit_eq_self_of_unchanged (proper : document.IsProper)
    (unchanged : (fit template document).2 = false) :
    fit template document = (document, false) := by
  induction proper generalizing template with
  | @map identity entries once inside ih =>
      cases template with
      | map templateIdentity wanted =>
          rcases fit_map_unchanged unchanged with ⟨fitted, complete⟩
          refine fit_map_eq_self (fun entry isEntry => ?_) complete
          rcases fitted entry isEntry with ⟨under, wants, unchanged⟩
          exact ⟨under, wants, ih entry isEntry unchanged⟩
      | _ =>
          rfl
  | _ =>
      rfl

/-- The keys that are kept are there once if they were. -/
theorem keep_once (once : entries.Pairwise fun one other => ¬ one.1.sameKey other.1 = true)
    (wanted : List (Scalar × Doc)) :
    (keep wanted entries).1.Pairwise fun one other => ¬ one.1.sameKey other.1 = true := by
  induction entries with
  | nil =>
      rw [keep]
      exact .nil
  | cons entry rest ih =>
      rcases entry with ⟨key, value⟩
      rcases List.pairwise_cons.1 once with ⟨differs, once⟩
      rw [keep_cons]
      cases lookup key wanted with
      | none =>
          exact ih once
      | some under =>
          refine List.pairwise_cons.2 ⟨fun other isOther => ?_, ih once⟩
          rcases mem_keep isOther with ⟨_, value', isEntry, -, -⟩
          exact differs (other.1, value') isEntry

theorem isProper_fit (templateProper : template.IsProper) (documentProper : document.IsProper) :
    (fit template document).1.IsProper := by
  induction documentProper generalizing template with
  | @map identity entries once inside ih =>
      cases templateProper with
      | @map templateIdentity wanted wantedOnce wantedInside =>
          rw [fit_map]
          refine .map (List.pairwise_append.2 ⟨keep_once once wanted, wantedOnce.filter _,
            fun one isKept other isAdded same => ?_⟩) fun entry isEntry => ?_
          · have isThere := lookup_isSome_of_mem isKept
            rw [lookup_of_sameKey same, (mem_missing.1 isAdded).2] at isThere
            cases isThere
          · rcases List.mem_append.1 isEntry with isKept | isAdded
            · rcases mem_keep isKept with ⟨under, value, isEntry, wants, isFitted⟩
              rcases exists_mem_of_lookup wants with ⟨found, isFound, rfl⟩
              rw [isFitted]
              exact ih (entry.1, value) isEntry (wantedInside found isFound)
            · exact wantedInside entry (mem_missing.1 isAdded).1
      | _ =>
          exact .map once inside
  | list inside =>
      exact .list inside
  | scalar value =>
      exact .scalar value
  | set identity members =>
      exact .set identity members

/-- Where fitting changed something, a path leads to something that was not there before, or is not
there any more. -/
theorem exists_path_of_changed (once : document.IsProper)
    (changed : (fit template document).2 = true) :
    ∃ path, ((fit template document).1.at? path).isSome ≠ (document.at? path).isSome := by
  induction once generalizing template with
  | @map identity entries once inside ih =>
      cases template with
      | map templateIdentity wanted =>
          rcases fit_map_changed_iff.1 changed with
            ⟨entry, isEntry, fitted⟩ | ⟨entry, isEntry, lacks⟩
          · have has := lookup_of_mem once isEntry
            cases wants : lookup entry.1 wanted with
            | none =>
                refine ⟨[entry.1], ?_⟩
                rw [fit_map, at?_map, at?_map, lookup_fitEntries, wants, has]
                simp [at?]
            | some under =>
                rcases ih entry isEntry (fitted under wants) with ⟨path, differs⟩
                refine ⟨entry.1 :: path, ?_⟩
                rw [fit_map, at?_map, at?_map, lookup_fitEntries, wants, has]
                exact differs
          · refine ⟨[entry.1], ?_⟩
            rcases Option.isSome_iff_exists.1 (lookup_isSome_of_mem isEntry) with ⟨under, wants⟩
            rw [fit_map, at?_map, at?_map, lookup_fitEntries, wants, lacks]
            simp [at?]
      | _ =>
          cases changed
  | _ =>
      cases changed

/-! ## The keys of a fitted mapping -/

/-- The keys of a mapping that was fitted are those of the template, and the ones it had not have
what the template has under them. -/
theorem at?_key_fit (isTemplate : isMap template = true) (isDocument : isMap document = true)
    (key : Scalar) :
    ((fit template document).1.at? [key]).isSome = (template.at? [key]).isSome ∧
      (document.at? [key] = none → (fit template document).1.at? [key] = template.at? [key]) := by
  rcases exists_of_isMap isTemplate with ⟨templateIdentity, wanted, rfl⟩
  rcases exists_of_isMap isDocument with ⟨identity, entries, rfl⟩
  rw [fit_map, at?_map, at?_map, at?_map, lookup_fitEntries]
  cases lookup key wanted <;> cases lookup key entries <;> simp [at?]

theorem isMap_fit : isMap (fit template document).1 = isMap document := by
  cases document with
  | map identity entries =>
      cases template <;> rfl
  | _ =>
      rfl

end Template

end Steward
