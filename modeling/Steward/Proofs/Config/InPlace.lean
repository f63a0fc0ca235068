import Steward.Proofs.Config.Boards
import Steward.Proofs.OrderedMap

/-!
# Mappings changed in place

A document is brought in step with a template by changing its mappings in place, of which a board
tells what they hold now.  Where no mapping of the document stands at two places of it, or in the
template as well, each of them is come to once, and the document as it is then is the fitted one
(`Template.update_fits`).

A mapping that stands at two places is changed at both of them when one is come to, and has in the
end what the last place asks for.
-/

namespace Steward

open Yaml

namespace Yaml.Doc

variable {entries : List (Scalar × Doc)} {key : Scalar} {value : Doc}

/-! ## Entries behind others -/

theorem lookup_eq_none_iff :
    lookup key entries = none ↔ ∀ entry ∈ entries, ¬ entry.1.sameKey key = true := by
  rw [lookup, Option.map_eq_none_iff, List.find?_eq_none]

theorem lookup_behind {kept rest : List (Scalar × Doc)} (absent : lookup key kept = none) :
    lookup key (kept ++ (key, value) :: rest) = some value := by
  rw [lookup_append, absent, lookup_cons, if_pos (Scalar.sameKey_iff.2 rfl)]
  rfl

theorem put_behind {kept rest : List (Scalar × Doc)} {old : Doc}
    (absent : lookup key kept = none) :
    put key value (kept ++ (key, old) :: rest) = kept ++ (key, value) :: rest := by
  induction kept with
  | nil =>
      rw [List.nil_append, put, if_pos (Scalar.sameKey_iff.2 rfl)]
      rfl
  | cons first kept ih =>
      rcases first with ⟨other, found⟩
      have apart := lookup_eq_none_iff.1 absent
      rw [List.cons_append, put, if_neg (apart _ List.mem_cons_self), ih]
      · rfl
      · exact lookup_eq_none_iff.2 fun entry isEntry => apart entry (List.mem_cons_of_mem _ isEntry)

theorem filter_behind {kept rest : List (Scalar × Doc)} (absent : lookup key kept = none)
    (gone : lookup key rest = none) :
    (kept ++ (key, value) :: rest).filter (fun entry => !entry.1.sameKey key) = kept ++ rest := by
  have stays {others : List (Scalar × Doc)} (none : lookup key others = none) :
      others.filter (fun entry => !entry.1.sameKey key) = others := by
    refine List.filter_eq_self.2 fun entry isEntry => ?_
    rw [Bool.not_eq_true']
    exact Bool.eq_false_iff.2 (lookup_eq_none_iff.1 none entry isEntry)
  rw [List.filter_append, stays absent, List.filter_cons_of_neg, stays gone]
  simp [Scalar.sameKey_iff]

end Yaml.Doc

namespace Template

variable {identity templateIdentity : Identity} {entries literal current kept rest wanted : Entries}
  {template document value under : Doc} {key : Scalar} {numbers own fixed : List Nat} {depth : Nat}
  {board after : Board} {work inner : Work}

/-! ## A mapping at work -/

namespace Work

/-- A mapping at work is the one that it was, and holds some entries now. -/
structure Holds (identity : Identity) (literal current : Entries) (work : Work) : Prop where
  isSame : ∃ written, work.document = .map identity written ∧
    (identity ≠ none → written = literal)
  entries : work.entries = current
  unchanged : work.changed = false → work.document = .map identity literal

/-- What happens inside of a mapping, without its being changed, leaves what it holds. -/
theorem Holds.of_inside (holds : work.Holds identity literal current) {changed : Bool}
    (only : work.board.ChangesOnly after numbers)
    (apart : ∀ number ∈ identity.toList, number ∉ numbers) :
    Holds identity literal current ⟨work.document, changed || work.changed, after⟩ := by
  rcases holds with ⟨⟨written, isSame, isLiteral⟩, isCurrent, unchanged⟩
  refine ⟨⟨written, isSame, isLiteral⟩, ?_, fun notChanged => ?_⟩
  · rw [← isCurrent, Work.entries, Work.entries, isSame]
    exact Board.entriesOf_of_agrees (only.agrees apart) written
  · exact unchanged (Bool.or_eq_false_iff.1 notChanged).2

/-- Replacing what a mapping holds changes no other one. -/
theorem Holds.replace (holds : work.Holds identity literal current) (others : Entries) :
    (work.replace others).Holds identity literal others ∧ (work.replace others).changed = true ∧
      work.board.ChangesOnly (work.replace others).board identity.toList := by
  rcases work with ⟨document, changed, board⟩
  rcases holds with ⟨⟨written, isSame, isLiteral⟩, -, -⟩
  dsimp only at isSame
  subst isSame
  cases identity with
  | none =>
      exact ⟨⟨⟨others, rfl, fun some => absurd rfl some⟩, rfl,
        fun notChanged => by cases notChanged⟩, rfl, fun number _ => rfl⟩
  | some number =>
      refine ⟨⟨⟨written, rfl, isLiteral⟩, ?_, fun notChanged => by cases notChanged⟩, rfl,
        fun other isOther => ?_⟩
      · change ((board.changed.insert number others).get? number).getD written = others
        rw [OrderedMap.get?_insert_self]
        rfl
      · exact OrderedMap.get?_insert_of_ne _ _ fun same => isOther (same ▸ List.mem_cons_self)

end Work

/-- What bringing a document in step with a template comes to is what fitting says. -/
structure Fits (template document : Doc) (board : Board) (work : Work) : Prop where
  changed : work.changed = (fit template document).2
  only : board.ChangesOnly work.board document.numbers
  draws : work.board.Draws template.numbers document.numbers document.depth work.document
    (fit template document).1
  holds : ∀ identity literal, document = .map identity literal →
    ∃ current, work.Holds identity literal current

/-! ### One key -/

/-- When what stands under a key was changed, it stands there as it came out. -/
theorem Work.around_holds (holds : work.Holds identity literal (kept ++ (key, value) :: rest))
    (absent : Doc.lookup key kept = none) (isMapping : isMap value = true)
    (fits : Fits under value work.board inner)
    (apart : ∀ number ∈ identity.toList, number ∉ value.numbers) :
    (work.around key inner).Holds identity literal (kept ++ (key, inner.document) :: rest) ∧
      (work.around key inner).changed = (inner.changed || work.changed) ∧
      inner.board.ChangesOnly (work.around key inner).board identity.toList := by
  rcases exists_of_isMap isMapping with ⟨valueIdentity, written, rfl⟩
  rcases fits.holds _ _ rfl with ⟨inside, ⟨found, isFound, isLiteral⟩, -, unchanged⟩
  have outer : Holds identity literal (kept ++ (key, .map valueIdentity written) :: rest)
      ⟨work.document, inner.changed || work.changed, inner.board⟩ :=
    holds.of_inside fits.only apart
  -- Where nothing is written back, what stands under the key is what stood there.
  have stays (same : inner.document = .map valueIdentity written)
      (isOuter : work.around key inner =
        ⟨work.document, inner.changed || work.changed, inner.board⟩) :
      (work.around key inner).Holds identity literal (kept ++ (key, inner.document) :: rest) ∧
        (work.around key inner).changed = (inner.changed || work.changed) ∧
        inner.board.ChangesOnly (work.around key inner).board identity.toList := by
    rw [isOuter, same]
    exact ⟨outer, rfl, fun number _ => rfl⟩
  cases valueIdentity with
  | some number =>
      have same : inner.document = .map (some number) written := by
        rw [isFound, isLiteral (Option.some_ne_none number)]
      exact stays same (by rw [around, same])
  | none =>
      cases isChanged : inner.changed with
      | false =>
          rw [isChanged] at stays outer
          have same := unchanged isChanged
          refine stays same ?_
          rw [around, same, isChanged]
          rfl
      | true =>
          rw [isChanged] at outer
          have isReplaced : work.around key inner =
              Work.replace ⟨work.document, true || work.changed, inner.board⟩
                (kept ++ (key, inner.document) :: rest) := by
            rw [around, isFound, isChanged]
            dsimp only
            rw [if_pos rfl, outer.entries, Doc.put_behind absent]
          rw [isReplaced]
          rcases outer.replace (kept ++ (key, inner.document) :: rest) with ⟨holds, changed, only⟩
          exact ⟨holds, changed, only⟩

theorem numbers_of_lookup (wants : Doc.lookup key wanted = some under) :
    under.numbers ⊆ Doc.numbers (.map templateIdentity wanted) := by
  rcases Doc.exists_mem_of_lookup wants with ⟨entry, isEntry, rfl⟩
  rw [Doc.numbers_map]
  exact List.Subset.trans (Doc.numbers_of_entry isEntry) (List.subset_append_right _ _)

/-- A mapping at work of which some entries are as they will be, and others are to come.  The
mappings in these were not come to yet, and none of them stands anywhere else. -/
structure Work.Ready (template : Doc) (identity : Identity) (literal kept rest : Entries)
    (work : Work) : Prop where
  holds : work.Holds identity literal (kept ++ rest)
  absent : ∀ entry ∈ rest, Doc.lookup entry.1 kept = none
  once : rest.Pairwise fun one other => ¬ one.1.sameKey other.1 = true
  proper : ∀ entry ∈ rest, entry.2.IsProper
  nodup : (identity.toList ++ Doc.numbersOfEntries rest).Nodup
  foreign : ∀ number ∈ identity.toList ++ Doc.numbersOfEntries rest, number ∉ template.numbers
  spares : work.board.Spares (Doc.numbersOfEntries rest)
  spareTemplate : work.board.Spares template.numbers

namespace Work.Ready

/-- A mapping that was just come to, of which all entries are to come. -/
theorem start (once : entries.Pairwise fun one other => ¬ one.1.sameKey other.1 = true)
    (proper : ∀ entry ∈ entries, entry.2.IsProper)
    (nodup : (Doc.numbers (.map identity entries)).Nodup)
    (foreign : ∀ number ∈ Doc.numbers (.map identity entries), number ∉ template.numbers)
    (spares : board.Spares (Doc.numbers (.map identity entries)))
    (spareTemplate : board.Spares template.numbers) :
    Ready template identity entries [] entries
      ⟨.map identity entries, false, (board.see template).see (.map identity entries)⟩ := by
  have same (numbers : List Nat) :
      ((board.see template).see (.map identity entries)).Agrees board numbers := by
    intro number isOne
    exact (Board.agrees_see _ _ numbers number isOne).trans
      (Board.agrees_see _ _ numbers number isOne)
  have isStart := Board.entriesOf_of_spares (spares.of_agrees (same _))
  rw [Doc.numbers_map] at nodup foreign spares
  refine ⟨⟨⟨entries, rfl, fun _ => rfl⟩, isStart, fun _ => rfl⟩,
    fun entry _ => Doc.lookup_nil entry.1, once, proper, nodup, foreign, ?_,
    spareTemplate.of_agrees (same _)⟩
  exact (spares.of_agrees (same _)).mono (List.subset_append_right _ _)

theorem gone (ready : work.Ready template identity literal kept ((key, value) :: rest)) :
    Doc.lookup key rest = none := by
  refine Doc.lookup_eq_none_iff.2 fun entry isEntry same => ?_
  refine (List.pairwise_cons.1 ready.once).1 entry isEntry ?_
  exact Scalar.sameKey_iff.2 (Scalar.sameKey_iff.1 same).symm

theorem spares_value (ready : work.Ready template identity literal kept ((key, value) :: rest)) :
    work.board.Spares value.numbers := by
  refine ready.spares.mono ?_
  rw [Doc.numbersOfEntries]
  exact List.subset_append_left _ _

/-- No mapping in the first entry is the mapping itself, or stands in another entry. -/
theorem apart (ready : work.Ready template identity literal kept ((key, value) :: rest))
    {number : Nat} (isInside : number ∈ value.numbers) :
    number ∉ identity.toList ∧ number ∉ Doc.numbersOfEntries rest := by
  have nodup := ready.nodup
  rw [Doc.numbersOfEntries] at nodup
  rcases List.nodup_append.1 nodup with ⟨-, nodupInside, outside⟩
  refine ⟨fun isOwn => ?_, fun isRest => ?_⟩
  · exact outside number isOwn number (List.mem_append_left _ isInside) rfl
  · exact (List.nodup_append.1 nodupInside).2.2 number isInside number isRest rfl

/-- When the first entry was gone through, the others are to come. -/
theorem next {now : Entries}
    (ready : work.Ready template identity literal kept ((key, value) :: rest))
    (holds : Holds identity literal (now ++ rest) inner)
    (absent : ∀ entry ∈ rest, Doc.lookup entry.1 now = none)
    (only : work.board.ChangesOnly inner.board (value.numbers ++ identity.toList)) :
    inner.Ready template identity literal now rest := by
  have within : identity.toList ++ Doc.numbersOfEntries rest ⊆
      identity.toList ++ Doc.numbersOfEntries ((key, value) :: rest) := by
    rw [Doc.numbersOfEntries]
    exact List.append_subset.2 ⟨List.subset_append_left _ _,
      List.Subset.trans (List.subset_append_right _ _) (List.subset_append_right _ _)⟩
  have nodup : (identity.toList ++ Doc.numbersOfEntries rest).Nodup := by
    refine ready.nodup.sublist ?_
    rw [Doc.numbersOfEntries]
    exact (List.sublist_append_right _ _).append_left _
  refine ⟨holds, absent, (List.pairwise_cons.1 ready.once).2,
    fun entry isEntry => ready.proper entry (List.mem_cons_of_mem _ isEntry), nodup,
    fun number isHere => ready.foreign number (within isHere), ?_, ?_⟩
  · have spared : work.board.Spares (Doc.numbersOfEntries rest) := by
      refine ready.spares.mono ?_
      rw [Doc.numbersOfEntries]
      exact List.subset_append_right _ _
    refine spared.of_agrees (only.agrees fun number isRest isHere => ?_)
    rcases List.mem_append.1 isHere with isInside | isOwn
    · exact (ready.apart isInside).2 isRest
    · exact (List.nodup_append.1 nodup).2.2 number isOwn number isRest rfl
  · refine ready.spareTemplate.of_agrees (only.agrees fun number isWanted isHere => ?_)
    refine ready.foreign number ?_ isWanted
    rw [Doc.numbersOfEntries]
    rcases List.mem_append.1 isHere with isInside | isOwn
    · exact List.mem_append_right _ (List.mem_append_left _ isInside)
    · exact List.mem_append_left _ isOwn

/-- When the first entry was kept, it is one of those that are as they will be. -/
theorem pass {here : Doc}
    (ready : work.Ready template identity literal kept ((key, value) :: rest))
    (holds : Holds identity literal (kept ++ (key, here) :: rest) inner)
    (only : work.board.ChangesOnly inner.board (value.numbers ++ identity.toList)) :
    inner.Ready template identity literal (kept ++ [(key, here)]) rest := by
  refine ready.next ?_ (fun entry isEntry => ?_) only
  · rw [List.append_assoc]
    exact holds
  · rw [Doc.lookup_append, ready.absent entry (List.mem_cons_of_mem _ isEntry), Doc.lookup_cons,
      if_neg ((List.pairwise_cons.1 ready.once).1 entry isEntry)]
    rfl

end Work.Ready

/-- Going on from a key removes it if the template has it not, or leaves under it what fitting makes
of it. -/
theorem Work.keepKey_fits {inside : Doc → Doc → Board → Except Fault Work}
    (ready : work.Ready (.map templateIdentity wanted) identity literal kept
      ((key, value) :: rest))
    (wantedProper : ∀ entry ∈ wanted, entry.2.IsProper)
    (goesInside : ∀ under, Doc.lookup key wanted = some under → isMap under = true →
      isMap value = true →
      ∃ inner, inside under value work.board = .ok inner ∧ Fits under value work.board inner) :
    ∃ after, work.keepKey inside (.map templateIdentity wanted) key = .ok after ∧
      (Doc.lookup key wanted = none ∧ after.Holds identity literal (kept ++ rest) ∧
          after.changed = true ∧ work.board.ChangesOnly after.board identity.toList ∨
        ∃ under now, Doc.lookup key wanted = some under ∧
          after.Holds identity literal (kept ++ (key, now) :: rest) ∧
          after.changed = ((fit under value).2 || work.changed) ∧
          work.board.ChangesOnly after.board (value.numbers ++ identity.toList) ∧
          after.board.Draws (Doc.numbers (.map templateIdentity wanted)) value.numbers value.depth
            now (fit under value).1) := by
  have absent := ready.absent (key, value) List.mem_cons_self
  have proper := ready.proper (key, value) List.mem_cons_self
  rw [keepKey, ready.holds.entries, Doc.lookup_behind absent,
    Board.entriesOf_of_spares ready.spareTemplate]
  dsimp only
  cases wants : Doc.lookup key wanted with
  | none =>
      dsimp only
      rw [Doc.filter_behind absent ready.gone]
      rcases ready.holds.replace (kept ++ rest) with ⟨replaced, changed, only⟩
      exact ⟨_, rfl, .inl ⟨rfl, replaced, changed, only⟩⟩
  | some under =>
      have underProper : under.IsProper := by
        rcases Doc.exists_mem_of_lookup wants with ⟨entry, isEntry, rfl⟩
        exact wantedProper entry isEntry
      dsimp only
      rw [Board.isMapping_of_isProper proper, Board.isMapping_of_isProper underProper]
      by_cases both : (isMap value && isMap under) = true
      · rcases Bool.and_eq_true_iff.1 both with ⟨isValue, isUnder⟩
        rcases goesInside under wants isUnder isValue with ⟨inner, isInner, fits⟩
        rcases Work.around_holds ready.holds absent isValue fits
            fun number isOwn isInside => (ready.apart isInside).1 isOwn with
          ⟨around, changed, only⟩
        refine ⟨work.around key inner, ?_, .inr ⟨under, inner.document, rfl, around, ?_,
          fits.only.trans only, ?_⟩⟩
        · rw [if_pos both, isInner]
          rfl
        · rw [changed, fits.changed]
        · exact (fits.draws.mono (numbers_of_lookup wants) (List.Subset.refl _)
            (Nat.le_refl _)).of_agrees (only.agrees fun number isInside =>
              (ready.apart isInside).1)
      · have notBoth : ¬ (isMap under = true ∧ isMap value = true) := by
          rintro ⟨isUnder, isValue⟩
          exact both (by rw [isUnder, isValue]; rfl)
        rw [if_neg both]
        refine ⟨work, rfl, .inr ⟨under, value, rfl, ready.holds, ?_, fun number _ => rfl, ?_⟩⟩
        · rw [fit_of_not_both notBoth]
          rfl
        · rw [fit_of_not_both notBoth]
          exact .of_spares proper ready.spares_value

/-! ### All keys -/

/-- Some entries of a mapping are drawn as others under the same keys. -/
def Board.DrawsAll (board : Board) (fixed own : List Nat) (depth : Nat) (entries drawn : Entries) :
    Prop :=
  List.Forall₂ (fun entry other => entry.1 = other.1 ∧
    board.Draws fixed own depth entry.2 other.2) entries drawn

theorem Board.DrawsAll.mono {shown : Entries} {wide : List Nat} {deep : Nat}
    (draws : board.DrawsAll fixed own depth entries shown) (within : own ⊆ wide)
    (le : depth ≤ deep) : board.DrawsAll fixed wide deep entries shown := by
  exact List.Forall₂.imp (fun entry other related =>
    ⟨related.1, related.2.mono (List.Subset.refl _) within le⟩) draws

theorem Board.DrawsAll.keys {shown : Entries}
    (draws : board.DrawsAll fixed own depth entries shown) :
    entries.map Prod.fst = shown.map Prod.fst := by
  induction draws with
  | nil =>
      rfl
  | cons related _ ih =>
      rw [List.map_cons, List.map_cons, related.1, ih]

/-- Going on from all keys of a mapping leaves the entries that fitting keeps. -/
theorem Work.keepKeys_fit {inside : Doc → Doc → Board → Except Fault Work}
    (ready : work.Ready (.map templateIdentity wanted) identity literal kept rest)
    (wantedProper : ∀ entry ∈ wanted, entry.2.IsProper)
    (goesInside : ∀ entry ∈ rest, ∀ under board, Doc.lookup entry.1 wanted = some under →
      isMap under = true → isMap entry.2 = true → Board.Spares board under.numbers →
      board.Spares entry.2.numbers →
      ∃ inner, inside under entry.2 board = .ok inner ∧ Fits under entry.2 board inner) :
    ∃ after now, (rest.map Prod.fst).foldlM
        (Work.keepKey inside (.map templateIdentity wanted)) work = .ok after ∧
      after.Holds identity literal (kept ++ now) ∧
      after.board.DrawsAll (Doc.numbers (.map templateIdentity wanted))
        (Doc.numbersOfEntries rest) (Doc.depthOfEntries rest) now (keep wanted rest).1 ∧
      after.changed = ((keep wanted rest).2 || work.changed) ∧
      work.board.ChangesOnly after.board (identity.toList ++ Doc.numbersOfEntries rest) := by
  induction rest generalizing work kept with
  | nil =>
      exact ⟨work, [], rfl, ready.holds, .nil, rfl, fun number _ => rfl⟩
  | cons entry rest ih =>
      rcases entry with ⟨key, value⟩
      have insideRest := fun entry isEntry => goesInside entry (List.mem_cons_of_mem _ isEntry)
      have within : (value.numbers ++ identity.toList) ++
          (identity.toList ++ Doc.numbersOfEntries rest) ⊆
            identity.toList ++ Doc.numbersOfEntries ((key, value) :: rest) := by
        intro number isOne
        rw [Doc.numbersOfEntries]
        simp only [List.mem_append] at isOne ⊢
        tauto
      rw [List.map_cons, List.foldlM_cons, keep_cons]
      rcases Work.keepKey_fits ready wantedProper fun under wants isUnder isValue =>
          goesInside (key, value) List.mem_cons_self under work.board wants isUnder isValue
            (ready.spareTemplate.mono (numbers_of_lookup wants)) ready.spares_value with
        ⟨middle, goesOn, ⟨lacks, holds, changed, only⟩ |
          ⟨under, here, wants, holds, changed, only, draws⟩⟩
      · have changesHere := only.mono (List.subset_append_right value.numbers identity.toList)
        have absent := fun entry isEntry => ready.absent entry (List.mem_cons_of_mem _ isEntry)
        rcases ih (ready.next holds absent changesHere) insideRest with
          ⟨after, now, runs, stands, drawn, isChanged, changes⟩
        rw [goesOn, lacks]
        refine ⟨after, now, runs, stands, ?_, ?_, (changesHere.trans changes).mono within⟩
        · rw [Doc.numbersOfEntries, Doc.depthOfEntries]
          exact drawn.mono (List.subset_append_right _ _) (Nat.le_max_right _ _)
        · rw [isChanged, changed]
          exact Bool.or_true _
      · rcases ih (ready.pass holds only) insideRest with
          ⟨after, now, runs, stands, drawn, isChanged, changes⟩
        rw [goesOn, wants]
        refine ⟨after, (key, here) :: now, runs, ?_, .cons ⟨rfl, ?_⟩ ?_, ?_,
          (only.trans changes).mono within⟩
        · rw [List.append_assoc] at stands
          exact stands
        · rw [Doc.numbersOfEntries, Doc.depthOfEntries]
          refine (draws.of_agrees (changes.agrees fun number isInside isOther => ?_)).mono
            (List.Subset.refl _) (List.subset_append_left _ _) (Nat.le_max_left _ _)
          rcases List.mem_append.1 isOther with isOwn | isRest
          · exact (ready.apart isInside).1 isOwn
          · exact (ready.apart isInside).2 isRest
        · rw [Doc.numbersOfEntries, Doc.depthOfEntries]
          exact drawn.mono (List.subset_append_right _ _) (Nat.le_max_right _ _)
        · rw [isChanged, changed]
          exact (Bool.or_left_comm ..).trans (Bool.or_assoc ..).symm

/-! ### What is missing -/

theorem missing_cons (entry : Scalar × Doc) (more entries : Entries) :
    missing (entry :: more) entries =
      if (Doc.lookup entry.1 entries).isNone then entry :: missing more entries
      else missing more entries := by
  rw [missing, List.filter_cons]
  rfl

/-- What is missing depends on the keys that are there. -/
theorem missing_congr {others : Entries} (same : entries.map Prod.fst = others.map Prod.fst)
    (more : Entries) : missing more entries = missing more others := by
  have absent (key : Scalar) (entries : Entries) : (Doc.lookup key entries).isNone = true ↔
      ∀ other ∈ entries.map Prod.fst, ¬ other.sameKey key = true := by
    rw [Option.isNone_iff_eq_none, Doc.lookup_eq_none_iff, List.forall_mem_map]
  refine List.filter_congr fun entry _ => ?_
  rw [Bool.eq_iff_iff, absent, absent, same]

theorem missing_concat {entry : Scalar × Doc} {more : Entries}
    (differs : ∀ other ∈ more, ¬ entry.1.sameKey other.1 = true) :
    missing more (entries ++ [entry]) = missing more entries := by
  refine List.filter_congr fun other isOther => ?_
  change (Doc.lookup other.1 (entries ++ [entry])).isNone = (Doc.lookup other.1 entries).isNone
  rw [Doc.lookup_append, Doc.lookup_cons, if_neg (differs other isOther), Doc.lookup_nil,
    Option.or_none]

/-- Adding entries of a template adds those that are missing, and changes nothing if there are
none. -/
theorem Work.addKeys_hold {more : Entries} (holds : work.Holds identity literal current)
    (once : more.Pairwise fun one other => ¬ one.1.sameKey other.1 = true) :
    (more.foldl Work.addKey work).Holds identity literal (current ++ missing more current) ∧
      (more.foldl Work.addKey work).changed =
        (work.changed || !(missing more current).isEmpty) ∧
      work.board.ChangesOnly (more.foldl Work.addKey work).board identity.toList := by
  induction more generalizing work current with
  | nil =>
      refine ⟨?_, (Bool.or_false _).symm, fun number _ => rfl⟩
      rw [missing, List.filter_nil, List.append_nil]
      exact holds
  | cons entry more ih =>
      rcases List.pairwise_cons.1 once with ⟨differs, once⟩
      rw [List.foldl_cons, missing_cons]
      by_cases isThere : (Doc.lookup entry.1 current).isSome = true
      · have same : work.addKey entry = work := by
          rw [addKey, holds.entries, if_pos isThere]
        rw [same, if_neg (by rw [← Option.not_isSome, isThere]; exact Bool.false_ne_true)]
        exact ih holds once
      · have isAdded : work.addKey entry = work.replace (current ++ [entry]) := by
          rw [addKey, holds.entries, if_neg isThere]
        rcases holds.replace (current ++ [entry]) with ⟨replaced, changed, only⟩
        rcases ih replaced once with ⟨holds, isChanged, changes⟩
        rw [Bool.not_eq_true] at isThere
        rw [isAdded, if_pos (by rw [← Option.not_isSome, isThere]; rfl)]
        rw [missing_concat differs, List.append_assoc] at holds
        refine ⟨holds, ?_, (only.trans changes).mono fun number isOwn => ?_⟩
        · rw [isChanged, changed]
          exact (Bool.or_true _).symm
        · exact (List.mem_append.1 isOwn).elim id id

/-! ## The whole of a document -/

/-- A mapping is drawn as the fitted one when its keys were gone through and what was missing was
added. -/
theorem Work.Holds.draws {now : Entries} {kept : Board}
    (holds : work.Holds identity entries (now ++ missing wanted now))
    (wantedProper : ∀ entry ∈ wanted, entry.2.IsProper)
    (nodup : (Doc.numbers (.map identity entries)).Nodup)
    (drawn : kept.DrawsAll (Doc.numbers (.map templateIdentity wanted))
      (Doc.numbersOfEntries entries) (Doc.depthOfEntries entries) now (keep wanted entries).1)
    (adds : kept.ChangesOnly work.board identity.toList) :
    work.board.Draws (Doc.numbers (.map templateIdentity wanted))
      (Doc.numbers (.map identity entries)) (Doc.depth (.map identity entries)) work.document
      (.map identity (fitEntries wanted entries)) := by
  intro later agrees spares steps enough around outside
  rw [Doc.numbers_map] at nodup agrees outside
  rw [Doc.depth_map] at enough
  have agreesOwn : later.Agrees work.board identity.toList :=
    fun number isOwn => agrees number (List.mem_append_left _ isOwn)
  have agreesInside : later.Agrees kept (Doc.numbersOfEntries entries) := by
    intro number isInside
    refine (agrees number (List.mem_append_right _ isInside)).trans (adds number fun isOwn => ?_)
    exact (List.nodup_append.1 nodup).2.2 number isOwn number isInside rfl
  rcases holds with ⟨⟨written, isSame, -⟩, isCurrent, -⟩
  rw [Work.entries, isSame] at isCurrent
  rw [isSame, fitEntries, ← missing_congr drawn.keys]
  refine Board.draw_map ((Board.entriesOf_of_agrees agreesOwn written).trans isCurrent)
    (fun number isOwn => outside number (List.mem_append_left _ isOwn)) (List.rel_append ?_ ?_)
    enough
  · refine List.Forall₂.imp (fun entry other related => ⟨related.1, fun steps enough => ?_⟩) drawn
    refine related.2 later agreesInside spares steps enough _ fun number isInside isAround => ?_
    rcases List.mem_append.1 isAround with isOwn | isAround
    · exact (List.nodup_append.1 nodup).2.2 number isOwn number isInside rfl
    · exact outside number (List.mem_append_right _ isInside) isAround
  · refine List.forall₂_same.2 fun entry isMissing => ⟨rfl, fun steps _ => ?_⟩
    have isWanted := (mem_missing.1 isMissing).1
    refine Board.drawWith_of_spares (wantedProper entry isWanted) (spares.mono ?_) _ _
    rw [Doc.numbers_map]
    exact List.Subset.trans (Doc.numbers_of_entry isWanted) (List.subset_append_right _ _)

/-- Nothing of a template and a document stands inside of itself, and no mapping of the document
stands at two places of it, or in the template as well. -/
structure IsUntangled (template document : Doc) : Prop where
  templateProper : template.IsProper
  documentProper : document.IsProper
  nodup : document.numbers.Nodup
  foreign : ∀ number ∈ document.numbers, number ∉ template.numbers

/-- What stands in an untangled document is not tangled with what the template has there. -/
theorem IsUntangled.inside {entry : Scalar × Doc}
    (untangled : IsUntangled (.map templateIdentity wanted) (.map identity entries))
    (isEntry : entry ∈ entries) (wants : Doc.lookup entry.1 wanted = some under) :
    IsUntangled under entry.2 := by
  rcases untangled with ⟨templateProper, documentProper, nodup, foreign⟩
  cases templateProper with | map _ wantedProper =>
  cases documentProper with | map _ proper =>
  rw [Doc.numbers_map] at nodup foreign
  have underProper : under.IsProper := by
    rcases Doc.exists_mem_of_lookup wants with ⟨found, isFound, rfl⟩
    exact wantedProper found isFound
  refine ⟨underProper, proper entry isEntry,
    Doc.nodup_of_entry isEntry (List.nodup_append.1 nodup).2.1, fun number isInside isWanted => ?_⟩
  exact foreign number (List.mem_append_right _ (Doc.numbers_of_entry isEntry isInside))
    (numbers_of_lookup wants isWanted)

/-- Bringing an untangled document in step with a template in place comes to what fitting says. -/
theorem update_fits (untangled : IsUntangled template document)
    (isTemplate : isMap template = true) (isDocument : isMap document = true)
    (spares : board.Spares document.numbers) (spareTemplate : board.Spares template.numbers)
    (deep : document.depth ≤ depth) :
    ∃ work, update depth template document board = .ok work ∧
      Fits template document board work := by
  induction depth generalizing template document board with
  | zero =>
      rcases exists_of_isMap isDocument with ⟨identity, entries, rfl⟩
      rw [Doc.depth_map] at deep
      exact absurd deep (Nat.not_succ_le_zero _)
  | succ depth ih =>
      rcases exists_of_isMap isTemplate with ⟨templateIdentity, wanted, rfl⟩
      rcases exists_of_isMap isDocument with ⟨identity, entries, rfl⟩
      rw [Doc.depth_map] at deep
      have insideFits (entry : Scalar × Doc) (isEntry : entry ∈ entries) (under : Doc)
          (board : Board) (wants : Doc.lookup entry.1 wanted = some under)
          (isUnder : isMap under = true) (isValue : isMap entry.2 = true)
          (spareUnder : board.Spares under.numbers) (spares : board.Spares entry.2.numbers) :
          ∃ inner, update depth under entry.2 board = .ok inner ∧
            Fits under entry.2 board inner := by
        exact ih (untangled.inside isEntry wants) isUnder isValue spares spareUnder
          (Nat.le_trans (Doc.depth_of_entry isEntry) (Nat.le_of_succ_le_succ deep))
      rcases untangled with ⟨templateProper, documentProper, nodup, foreign⟩
      cases templateProper with | map wantedOnce wantedProper =>
      cases documentProper with | map once proper =>
      have ready := Work.Ready.start once proper nodup foreign spares spareTemplate
      rcases Work.keepKeys_fit ready wantedProper insideFits with
        ⟨kept, now, runs, holds, drawn, changed, changes⟩
      have spareKept : kept.board.Spares (Doc.numbers (.map templateIdentity wanted)) :=
        ready.spareTemplate.of_agrees
          (changes.agrees fun number isWanted isHere => ready.foreign number isHere isWanted)
      rcases Work.addKeys_hold holds wantedOnce with ⟨holds, changedToo, adds⟩
      rw [List.nil_append] at holds changedToo
      refine ⟨wanted.foldl Work.addKey kept, ?_, ?_, ?_, ?_, ?_⟩
      · rw [update, ready.holds.entries, List.nil_append, runs]
        change Except.ok ((kept.board.entriesOf (.map templateIdentity wanted)).foldl
          Work.addKey kept) = _
        rw [Board.entriesOf_of_spares spareKept]
      · rw [changedToo, changed, missing_congr drawn.keys, fit_map, Bool.or_false]
      · intro number isOther
        rw [Doc.numbers_map] at isOther
        rw [adds number fun isOwn => isOther (List.mem_append_left _ isOwn),
          changes number isOther, Board.changed_see, Board.changed_see]
      · rw [fit_map]
        exact holds.draws wantedProper nodup drawn adds
      · rintro _ _ ⟨⟩
        exact ⟨_, holds⟩

/-! ## What is fitted already -/

/-- Going on from the keys of a mapping that is fitted changes nothing. -/
theorem Work.keepKeys_of_fitted {inside : Doc → Doc → Board → Except Fault Work}
    (holds : ∀ seen, Board.entriesOf ⟨seen, .empty⟩ document = entries)
    (wants : ∀ seen, Board.entriesOf ⟨seen, .empty⟩ template = wanted)
    (stays : ∀ entry ∈ rest, Doc.lookup entry.1 entries = some entry.2 ∧
      ∃ under, Doc.lookup entry.1 wanted = some under ∧ entry.2.IsProper ∧ under.IsProper ∧
        (isMap under = true → isMap entry.2 = true → ∀ seen, ∃ later,
          inside under entry.2 ⟨seen, .empty⟩ = .ok ⟨entry.2, false, ⟨later, .empty⟩⟩))
    (seen : OrderedMap Nat Entries) :
    ∃ later, (rest.map Prod.fst).foldlM (Work.keepKey inside template)
      ⟨document, false, ⟨seen, .empty⟩⟩ = .ok ⟨document, false, ⟨later, .empty⟩⟩ := by
  induction rest generalizing seen with
  | nil =>
      exact ⟨seen, rfl⟩
  | cons entry rest ih =>
      rcases stays entry List.mem_cons_self with
        ⟨isThere, under, isWanted, proper, underProper, goesInside⟩
      have later := ih fun entry isEntry => stays entry (List.mem_cons_of_mem _ isEntry)
      rw [List.map_cons, List.foldlM_cons, keepKey, Work.entries, holds, isThere, wants, isWanted]
      dsimp only
      rw [Board.isMapping_of_isProper proper, Board.isMapping_of_isProper underProper]
      split
      · rename_i both
        rcases Bool.and_eq_true_iff.1 both with ⟨isValue, isUnder⟩
        rcases goesInside isUnder isValue seen with ⟨between, isInside⟩
        rcases exists_of_isMap isValue with ⟨valueIdentity, written, isMapping⟩
        rw [isInside, isMapping]
        cases valueIdentity with
        | none =>
            exact later between
        | some number =>
            exact later between
      · exact later seen

theorem Work.addKeys_of_fitted {more : Entries}
    (complete : ∀ entry ∈ more, (Doc.lookup entry.1 work.entries).isSome = true) :
    more.foldl Work.addKey work = work := by
  induction more with
  | nil =>
      rfl
  | cons entry more ih =>
      rw [List.foldl_cons, addKey, if_pos (complete entry List.mem_cons_self)]
      exact ih fun entry isEntry => complete entry (List.mem_cons_of_mem _ isEntry)

/-- What fitting does not change is not changed in place, wherever mappings of it stand. -/
theorem update_of_fitted (templateProper : template.IsProper) (documentProper : document.IsProper)
    (isTemplate : isMap template = true) (isDocument : isMap document = true)
    (unchanged : (fit template document).2 = false) (deep : document.depth ≤ depth)
    (seen : OrderedMap Nat Entries) :
    ∃ later, update depth template document ⟨seen, .empty⟩ =
      .ok ⟨document, false, ⟨later, .empty⟩⟩ := by
  induction depth generalizing template document seen with
  | zero =>
      rcases exists_of_isMap isDocument with ⟨identity, entries, rfl⟩
      rw [Doc.depth_map] at deep
      exact absurd deep (Nat.not_succ_le_zero _)
  | succ depth ih =>
      rcases exists_of_isMap isTemplate with ⟨templateIdentity, wanted, rfl⟩
      rcases exists_of_isMap isDocument with ⟨identity, entries, rfl⟩
      cases templateProper with | map wantedOnce wantedProper =>
      cases documentProper with | map once proper =>
      rcases fit_map_unchanged unchanged with ⟨fitted, complete⟩
      rw [Doc.depth_map] at deep
      have holds (identity : Identity) (entries : Entries) (seen : OrderedMap Nat Entries) :
          Board.entriesOf ⟨seen, .empty⟩ (.map identity entries) = entries :=
        Board.entriesOf_of_spares fun number _ => OrderedMap.get?_empty number
      rcases Board.see_eq ⟨seen, .empty⟩ (.map templateIdentity wanted) with ⟨first, isFirst⟩
      rcases Board.see_eq ⟨first, .empty⟩ (.map identity entries) with ⟨start, isStart⟩
      have stays (entry : Scalar × Doc) (isEntry : entry ∈ entries) :
          Doc.lookup entry.1 entries = some entry.2 ∧
            ∃ under, Doc.lookup entry.1 wanted = some under ∧ entry.2.IsProper ∧
              under.IsProper ∧ (isMap under = true → isMap entry.2 = true → ∀ seen, ∃ later,
                update depth under entry.2 ⟨seen, .empty⟩ =
                  .ok ⟨entry.2, false, ⟨later, .empty⟩⟩) := by
        rcases fitted entry isEntry with ⟨under, wants, unchanged⟩
        rcases Doc.exists_mem_of_lookup wants with ⟨found, isFound, rfl⟩
        refine ⟨Doc.lookup_of_mem once isEntry, found.2, wants, proper entry isEntry,
          wantedProper found isFound, fun isUnder isValue => ?_⟩
        exact ih (wantedProper found isFound) (proper entry isEntry) isUnder isValue unchanged
          (Nat.le_trans (Doc.depth_of_entry isEntry) (Nat.le_of_succ_le_succ deep))
      rcases Work.keepKeys_of_fitted (holds identity entries) (holds templateIdentity wanted) stays
        start with ⟨later, runs⟩
      refine ⟨later, ?_⟩
      rw [update, isFirst, isStart]
      dsimp only
      rw [Work.entries, holds, runs]
      change Except.ok ((Board.entriesOf _ (.map templateIdentity wanted)).foldl Work.addKey _) = _
      rw [holds, Work.addKeys_of_fitted]
      intro entry isEntry
      rw [Work.entries, holds]
      exact complete entry isEntry

/-! ## Bringing a document in step -/

theorem le_reach (document : Doc) : document.depth ≤ reach document := by
  exact Nat.le_add_right _ _

/-- An untangled document that is brought in step with a template is the fitted one. -/
theorem apply_eq_fit (untangled : IsUntangled template document)
    (isTemplate : isMap template = true) (isDocument : isMap document = true) :
    apply template document = .ok (fit template document) := by
  have spares (numbers : List Nat) : Board.Spares .empty numbers :=
    fun number _ => OrderedMap.get?_empty number
  rcases update_fits untangled isTemplate isDocument (spares _) (spares _) (le_reach document) with
    ⟨work, updates, fits⟩
  have outcome : work.outcome document = fit template document := by
    rw [Work.outcome]
    cases changed : work.changed with
    | false =>
        rw [fit_eq_self_of_unchanged untangled.documentProper (fits.changed.symm.trans changed)]
        rfl
    | true =>
        have spareTemplate : work.board.Spares template.numbers :=
          (spares _).of_agrees (fits.only.agrees fun number isWanted isHere =>
            untangled.foreign number isHere isWanted)
        refine Prod.ext ?_ (changed.symm.trans fits.changed)
        exact fits.draws work.board (fun _ _ => rfl) spareTemplate _
          (Nat.le_trans (Nat.le_add_right _ _) (Nat.le_add_right _ _)) []
          fun _ _ => List.not_mem_nil
  rcases exists_of_isMap isTemplate with ⟨templateIdentity, wanted, rfl⟩
  rcases exists_of_isMap isDocument with ⟨identity, entries, rfl⟩
  rw [apply.eq_def]
  dsimp only
  rw [updates, ← outcome]
  rfl

/-- A document that is fitted already is left as it is, even if mappings of it stand in the template
as well. -/
theorem apply_of_fitted (templateProper : template.IsProper) (documentProper : document.IsProper)
    (isTemplate : isMap template = true) (isDocument : isMap document = true)
    (unchanged : (fit template document).2 = false) :
    apply template document = .ok (document, false) := by
  rcases update_of_fitted templateProper documentProper isTemplate isDocument unchanged
    (le_reach document) .empty with ⟨later, updates⟩
  rcases exists_of_isMap isTemplate with ⟨templateIdentity, wanted, rfl⟩
  rcases exists_of_isMap isDocument with ⟨identity, entries, rfl⟩
  rw [apply.eq_def]
  dsimp only
  rw [Board.empty, updates]
  rfl

/-- Bringing a mapping in step with another one succeeds if it is untangled.  Wherever both have a
mapping, the document then has the keys of the template, the ones it had not with what the template
has; whatever else stands where the template has something is kept.  It is said to have changed
exactly if it did, by what stands at its paths, and doing this again changes nothing. -/
theorem apply_follows (isTemplate : isMap template = true) (isDocument : isMap document = true)
    (untangled : IsUntangled template document) :
    ∃ fitted changed, apply template document = .ok (fitted, changed) ∧
      (∀ path under value, template.at? path = some under → document.at? path = some value →
        (isMap under = true ∧ isMap value = true →
          (∃ inside, fitted.at? path = some inside ∧ isMap inside = true) ∧
          ∀ key,
            (fitted.at? (path ++ [key])).isSome = (template.at? (path ++ [key])).isSome ∧
            (document.at? (path ++ [key]) = none →
              fitted.at? (path ++ [key]) = template.at? (path ++ [key]))) ∧
        (¬ (isMap under = true ∧ isMap value = true) → fitted.at? path = some value)) ∧
      (changed = true ↔ fitted ≠ document) ∧
      (changed = true → ∃ path, (fitted.at? path).isSome ≠ (document.at? path).isSome) ∧
      apply template fitted = .ok (fitted, false) := by
  have fits := apply_eq_fit untangled isTemplate isDocument
  rcases untangled with ⟨templateProper, documentProper, -, -⟩
  have differs (changed : (fit template document).2 = true) :=
    exists_path_of_changed documentProper changed
  refine ⟨(fit template document).1, (fit template document).2, fits, ?_, ?_, differs, ?_⟩
  · intro path under value inTemplate inDocument
    have inFitted := at?_fit inTemplate inDocument
    refine ⟨fun both => ⟨⟨_, inFitted, isMap_fit.trans both.2⟩, fun key => ?_⟩, fun notBoth => ?_⟩
    · rw [at?_append, at?_append, at?_append, inTemplate, inDocument, inFitted]
      exact at?_key_fit both.1 both.2 key
    · rw [inFitted, fit_of_not_both notBoth]
  · constructor
    · intro changed same
      rcases differs changed with ⟨path, differs⟩
      exact differs (by rw [same])
    · intro differs
      rw [← Bool.not_eq_false]
      intro unchanged
      exact differs (by rw [fit_eq_self_of_unchanged documentProper unchanged])
  · exact apply_of_fitted templateProper (isProper_fit templateProper documentProper) isTemplate
      (isMap_fit.trans isDocument) (congrArg Prod.snd (fit_fit documentProper templateProper))

/-! ## A template in use -/

namespace Kitchen

/-- What a kitchen is to have: an oven, and a stove. -/
def plan : Doc :=
  .map (some 0) [(.text "name", .scalar (.text "?")),
    (.text "oven", .map (some 1)
      [(.text "heat", .scalar (.int 200)), (.text "fan", .scalar (.bool true))]),
    (.text "stove", .map (some 2) [(.text "gas", .scalar (.bool false))])]

/-- A kitchen with a key too many at the top and in its oven, of which another key is missing, and
without a stove. -/
def equipment : Doc :=
  .map (some 3) [(.text "name", .scalar (.text "galley")), (.text "sink", .scalar .null),
    (.text "oven", .map (some 4)
      [(.text "heat", .scalar (.int 90)), (.text "grill", .scalar .null)])]

/-- A kitchen with a cooker that is its oven as well as its stove. -/
def cooker : Doc :=
  let heated : Doc := .map (some 4) [(.text "heat", .scalar (.int 90))]
  .map (some 3) [(.text "oven", heated), (.text "stove", heated)]

theorem plan_proper : plan.IsProper := by
  rw [plan]
  refine .map (by decide) (List.forall_mem_cons.2 ⟨.scalar _, List.forall_mem_cons.2 ⟨?_,
    List.forall_mem_singleton.2 ?_⟩⟩)
  · exact .map (by decide)
      (List.forall_mem_cons.2 ⟨.scalar _, List.forall_mem_singleton.2 (.scalar _)⟩)
  · exact .map (by decide) (List.forall_mem_singleton.2 (.scalar _))

theorem equipment_proper : equipment.IsProper := by
  rw [equipment]
  refine .map (by decide) (List.forall_mem_cons.2
    ⟨.scalar _, List.forall_mem_cons.2 ⟨.scalar _, List.forall_mem_singleton.2 ?_⟩⟩)
  exact .map (by decide)
    (List.forall_mem_cons.2 ⟨.scalar _, List.forall_mem_singleton.2 (.scalar _)⟩)

theorem equipment_untangled : IsUntangled plan equipment :=
  ⟨plan_proper, equipment_proper, by decide, by decide⟩

theorem kitchen_follows :
    isMap plan = true ∧ isMap equipment = true ∧ IsUntangled plan equipment ∧
      ∃ fitted, apply plan equipment = .ok (fitted, true) ∧ fitted ≠ equipment ∧
        fitted.at? [.text "name"] = some (.scalar (.text "galley")) ∧
        fitted.at? [.text "sink"] = none ∧
        fitted.at? [.text "oven", .text "heat"] = some (.scalar (.int 90)) ∧
        fitted.at? [.text "oven", .text "fan"] = some (.scalar (.bool true)) ∧
        fitted.at? [.text "oven", .text "grill"] = none ∧
        fitted.at? [.text "stove"] = plan.at? [.text "stove"] ∧
        apply plan fitted = .ok (fitted, false) := by
  rcases apply_follows (rfl : isMap plan = true) (rfl : isMap equipment = true)
    equipment_untangled with ⟨fitted, changed, applied, paths, changedIff, -, again⟩
  have isChanged : changed = true :=
    congrArg Prod.snd (Except.ok.inj (applied.symm.trans rfl : _ = Except.ok (_, true)))
  have atTop := ((paths [] plan equipment rfl rfl).1 ⟨rfl, rfl⟩).2
  have inOven := ((paths [.text "oven"] _ _ rfl rfl).1 ⟨rfl, rfl⟩).2
  refine ⟨rfl, rfl, equipment_untangled, fitted, isChanged ▸ applied,
    changedIff.1 isChanged, ?_, ?_, ?_, ?_, ?_, ?_, again⟩
  · exact (paths [.text "name"] _ _ rfl rfl).2 (by decide)
  · exact Option.not_isSome_iff_eq_none.1 (Bool.eq_false_iff.1 (atTop (.text "sink")).1)
  · exact (paths [.text "oven", .text "heat"] _ _ rfl rfl).2 (by decide)
  · exact (inOven (.text "fan")).2 rfl
  · exact Option.not_isSome_iff_eq_none.1 (Bool.eq_false_iff.1 (inOven (.text "grill")).1)
  · exact (atTop (.text "stove")).2 rfl

/-- A cooker that stands at two places ends up as a stove at both of them: the oven has lost its
heat, though the plan and the kitchen had it, and has the gas that the plan has for the stove. -/
theorem cooker_is_no_oven :
    ∃ fitted, apply plan cooker = .ok (fitted, true) ∧
      (plan.at? [.text "oven"]).map isMap = some true ∧
      (cooker.at? [.text "oven"]).map isMap = some true ∧
      (plan.at? [.text "oven", .text "heat"]).isSome = true ∧
      (cooker.at? [.text "oven", .text "heat"]).isSome = true ∧
      fitted.at? [.text "oven", .text "heat"] = none ∧
      (plan.at? [.text "oven", .text "gas"]).isSome = false ∧
      (fitted.at? [.text "oven", .text "gas"]).isSome = true := by
  exact ⟨_, rfl, rfl, rfl, rfl, rfl, rfl, rfl, rfl⟩

end Kitchen

end Template

end Steward
