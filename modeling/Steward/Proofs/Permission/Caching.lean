import Mathlib.Data.List.Infix
import Steward.Proofs.Permission.Calls

/-!
# What a cache of permissions changes

A cache is a permission tree of its own, so what it remembers for a path it also
answers for every longer path.  It never makes a permit up: each of its answers is
what the holder inherits for some prefix of the path that is asked.

The main result says exactly when this can not be noticed: if and only if whatever
is inherited for a path is inherited for every longer path too.  Where a longer
path is decided otherwise, asking for the shorter one first changes the answer.
-/

namespace Steward

/-- Whatever some permissibles decide together for a path, they decide in the same
way for every longer path. -/
def Uniform (answer : Nat → PermissionPath → Permit) (ids : List Nat) : Prop :=
  ∀ path longer : PermissionPath, path.trail <+: longer.trail →
    inherited answer ids path ≠ .none →
    inherited answer ids longer = inherited answer ids path

namespace Holder

variable {answer : Nat → PermissionPath → Permit}

/-- Everything that is cached is inherited. -/
def Sound (answer : Nat → PermissionPath → Permit) (holder : Holder) : Prop :=
  ∀ cache, holder.cache = some cache → ∀ trail, cache.permitAt trail ≠ .none →
    ∃ path : PermissionPath, path.trail = trail ∧
      inherited answer holder.inherits path = cache.permitAt trail

/-- Nothing is cached. -/
def Forgotten (holder : Holder) : Prop :=
  ∀ cache, holder.cache = some cache → ∀ trail, cache.permitAt trail = .none

theorem forgotten_invalidated (holder : Holder) : holder.invalidated.Forgotten := by
  intro cache cached trail
  simp only [invalidated, Option.map_eq_some_iff] at cached
  rcases cached with ⟨_, -, rfl⟩
  exact PermissionTree.permitAt_clear _ trail

theorem Forgotten.sound {holder : Holder} (forgotten : holder.Forgotten) :
    holder.Sound answer := by
  intro cache cached trail stands
  exact absurd (forgotten cache cached trail) stands

/-- Remembering what is inherited keeps a cache sound. -/
theorem Sound.remember {holder : Holder} (sound : holder.Sound answer) (path : PermissionPath) :
    Sound answer
      { holder with
        cache := holder.cache.map
          (PermissionTree.set (inherited answer holder.inherits path) path) } := by
  intro cache cached trail stands
  simp only [Option.map_eq_some_iff] at cached
  rcases cached with ⟨old, found, rfl⟩
  rw [PermissionTree.permitAt_set] at stands ⊢
  split at stands
  · rename_i here
    exact ⟨path, here.symm, by rw [if_pos here]⟩
  · rename_i elsewhere
    rw [if_neg elsewhere]
    exact sound old found trail stands

/-- A sound cache answers what is inherited for a prefix of the path. -/
theorem Sound.exists_prefix {holder : Holder} {cache : PermissionTree} {path : PermissionPath}
    (sound : holder.Sound answer) (cached : holder.cache = some cache)
    (hit : cache.check .none path ≠ .none) :
    ∃ shorter : PermissionPath, shorter.trail <+: path.trail ∧
      inherited answer holder.inherits shorter = cache.check .none path := by
  rw [PermissionTree.check_eq_deepest, Permit.orElse_none] at hit ⊢
  rcases PermissionTree.exists_of_deepest hit with ⟨trail, isPrefix, stands⟩
  rw [← stands] at hit ⊢
  rcases sound cache cached trail hit with ⟨shorter, rfl, same⟩
  exact ⟨shorter, isPrefix, same⟩

/-- A holder without a cache answers from its own tree, and then what it
inherits. -/
theorem ask_of_no_cache {holder : Holder} (plain : holder.cache = none) (path : PermissionPath) :
    holder.ask answer path =
      ((holder.tree.check .none path).orElse (inherited answer holder.inherits path), holder) := by
  rcases holder with ⟨kind, tree, inherits, cache⟩
  cases plain
  by_cases decides : tree.check .none path = .none
  · by_cases found : inherited answer inherits path = .none
    · simp [ask, decides, found]
    · simp [ask, decides, found]
  · simp [ask, decides, Permit.orElse_of_ne_none _ decides]

/-! ## A holder with a cache beside one without -/

/-- A holder that may have a cache, and the same holder without one. -/
structure Mirrors (answer : Nat → PermissionPath → Permit) (cached plain : Holder) : Prop where
  kind_eq : plain.kind = cached.kind
  tree_eq : plain.tree = cached.tree
  inherits_eq : plain.inherits = cached.inherits
  plain_cache : plain.cache = none
  sound : cached.Sound answer

namespace Mirrors

variable {cached plain : Holder}

/-- With uniform inheritance, a cache does not change an answer. -/
theorem ask (mirrors : Mirrors answer cached plain) (uniform : Uniform answer cached.inherits)
    (path : PermissionPath) :
    (cached.ask answer path).1 = (plain.ask answer path).1 ∧
      Mirrors answer (cached.ask answer path).2 (plain.ask answer path).2 := by
  rw [ask_of_no_cache mirrors.plain_cache, mirrors.tree_eq, mirrors.inherits_eq]
  simp only [Holder.ask]
  by_cases own : cached.tree.check .none path = .none
  · rw [if_neg (by simp [own]), own, Permit.none_orElse]
    by_cases hit : (cached.cache.map (PermissionTree.check .none path)).getD .none = .none
    · rw [if_neg (by simp [hit])]
      by_cases found : inherited answer cached.inherits path = .none
      · rw [if_pos found]
        exact ⟨found.symm, mirrors⟩
      · rw [if_neg found]
        exact ⟨rfl, mirrors.kind_eq, mirrors.tree_eq, mirrors.inherits_eq,
          mirrors.plain_cache, mirrors.sound.remember path⟩
    · rw [if_pos hit]
      refine ⟨?_, mirrors⟩
      cases has : cached.cache with
      | none =>
          simp [has] at hit
      | some cache =>
          simp only [has, Option.map_some, Option.getD_some] at hit ⊢
          rcases mirrors.sound.exists_prefix has hit with ⟨shorter, isPrefix, same⟩
          rw [← same] at hit ⊢
          exact (uniform shorter path isPrefix hit).symm
  · rw [if_pos own, Permit.orElse_of_ne_none _ own]
    exact ⟨rfl, mirrors⟩

/-- A change of both holders after which the cache is forgotten. -/
theorem invalidate
    (kind : plain.kind = cached.kind) (tree : plain.tree = cached.tree)
    (inherits : plain.inherits = cached.inherits) (plain_cache : plain.cache = none) :
    Mirrors answer cached.invalidated plain.invalidated where
  kind_eq := kind
  tree_eq := tree
  inherits_eq := inherits
  plain_cache := by simp [invalidated, plain_cache]
  sound := (forgotten_invalidated cached).sound

theorem restore (mirrors : Mirrors answer cached plain) (data : Value) :
    (cached.restore data).1 = (plain.restore data).1 ∧
      Mirrors answer (cached.restore data).2 (plain.restore data).2 := by
  simp only [Holder.restore, mirrors.tree_eq]
  split
  · exact ⟨rfl, mirrors⟩
  · split
    · exact ⟨rfl, mirrors.kind_eq, rfl, mirrors.inherits_eq, mirrors.plain_cache,
        mirrors.sound⟩
    · refine ⟨rfl, invalidate ?_ rfl mirrors.inherits_eq mirrors.plain_cache⟩
      simp only [mirrors.kind_eq]

/-- With uniform inheritance, a cache does not change what a call answers. -/
theorem step (mirrors : Mirrors answer cached plain) (uniform : Uniform answer cached.inherits)
    (call : HolderCall) :
    (cached.step answer call).1 = (plain.step answer call).1 ∧
      Mirrors answer (cached.step answer call).2 (plain.step answer call).2 := by
  cases call with
  | set path permit =>
      refine ⟨rfl, invalidate mirrors.kind_eq ?_ mirrors.inherits_eq mirrors.plain_cache⟩
      simp only [mirrors.tree_eq]
  | addInherits id =>
      refine ⟨rfl, invalidate mirrors.kind_eq mirrors.tree_eq ?_ mirrors.plain_cache⟩
      simp only [mirrors.inherits_eq]
  | removeInherits id =>
      simp only [Holder.step, mirrors.inherits_eq]
      split
      · exact ⟨rfl, invalidate mirrors.kind_eq mirrors.tree_eq rfl mirrors.plain_cache⟩
      · exact ⟨rfl, mirrors⟩
  | load data =>
      rcases mirrors.restore data with ⟨same, mirrored⟩
      refine ⟨?_, mirrored⟩
      simp only [Holder.step, same]
  | check path fallback =>
      rcases mirrors.ask uniform path with ⟨same, mirrored⟩
      refine ⟨?_, mirrored⟩
      simp only [Holder.step, same]

theorem stepAll {inheritable : Nat → Prop} {calls : List HolderCall}
    (mirrors : Mirrors answer cached plain)
    (uniform : ∀ ids, (∀ id ∈ ids, inheritable id) → Uniform answer ids)
    (callsWithin : ∀ call ∈ calls, call.Within inheritable)
    (within : ∀ id ∈ cached.inherits, inheritable id) :
    (cached.stepAll answer calls).1 = (plain.stepAll answer calls).1 := by
  induction calls generalizing cached plain with
  | nil =>
      rfl
  | cons call rest ih =>
      rcases mirrors.step (uniform _ within) call with ⟨same, mirrored⟩
      have goesOn := ih mirrored
        (fun other member => callsWithin other (List.mem_cons_of_mem _ member))
        (cached.step_within answer within (callsWithin call List.mem_cons_self))
      simp only [Holder.stepAll, same, goesOn]

end Mirrors

/-! ## Calls that bring the cache to light -/

theorem stepAll_append (answer : Nat → PermissionPath → Permit) (first second : List HolderCall)
    (holder : Holder) :
    holder.stepAll answer (first ++ second) =
      ((holder.stepAll answer first).1 ++
          ((holder.stepAll answer first).2.stepAll answer second).1,
        ((holder.stepAll answer first).2.stepAll answer second).2) := by
  induction first generalizing holder with
  | nil =>
      rfl
  | cons call rest ih =>
      simp only [List.cons_append, stepAll, ih]

theorem stepAll_length (answer : Nat → PermissionPath → Permit) (calls : List HolderCall)
    (holder : Holder) :
    (holder.stepAll answer calls).1.length = calls.length := by
  induction calls generalizing holder with
  | nil =>
      rfl
  | cons call rest ih =>
      simp only [stepAll, List.length_cons, ih]

/-- Stop inheriting altogether. -/
theorem stepAll_removeInherits (answer : Nat → PermissionPath → Permit) (holder : Holder) :
    (holder.stepAll answer (holder.inherits.map .removeInherits)).2.inherits = [] := by
  rcases holder with ⟨kind, tree, inherits, cache⟩
  induction inherits generalizing cache with
  | nil =>
      rfl
  | cons id rest ih =>
      simp only [List.map_cons, stepAll, step, List.contains_cons, beq_self_eq_true,
        Bool.true_or, if_true, List.erase_cons_head]
      exact ih _

theorem stepAll_addInherits (answer : Nat → PermissionPath → Permit) (ids : List Nat)
    (holder : Holder) :
    (holder.stepAll answer (ids.map .addInherits)).2.inherits = holder.inherits ++ ids := by
  induction ids generalizing holder with
  | nil =>
      simp [stepAll]
  | cons id rest ih =>
      simp only [List.map_cons, stepAll, ih]
      simp [step, invalidated]

/-- A call neither switches a cache on nor off. -/
theorem step_cache_isSome (answer : Nat → PermissionPath → Permit) (call : HolderCall)
    (holder : Holder) :
    (holder.step answer call).2.cache.isSome = holder.cache.isSome := by
  cases call with
  | set path permit =>
      simp [step, invalidated]
  | addInherits id =>
      simp [step, invalidated]
  | removeInherits id =>
      rw [step]
      split <;> simp [invalidated]
  | load data =>
      simp only [step, restore]
      split
      · rfl
      · split <;> simp [invalidated]
  | check path fallback =>
      simp only [step, ask]
      split
      · rfl
      · split
        · rfl
        · split <;> simp

theorem stepAll_cache_isSome (answer : Nat → PermissionPath → Permit) (calls : List HolderCall)
    (holder : Holder) :
    (holder.stepAll answer calls).2.cache.isSome = holder.cache.isSome := by
  induction calls generalizing holder with
  | nil =>
      rfl
  | cons call rest ih =>
      simp only [stepAll, ih, step_cache_isSome]

/-- Take back the permits at the ends of some paths. -/
theorem stepAll_silence_permitAt (answer : Nat → PermissionPath → Permit)
    (paths : List PermissionPath) (holder : Holder) {trail : List String}
    (silent : trail ∈ paths.map PermissionPath.trail ∨ holder.tree.permitAt trail = .none) :
    (holder.stepAll answer (paths.map (.set · .none))).2.tree.permitAt trail = .none := by
  induction paths generalizing holder with
  | nil =>
      simpa [stepAll] using silent
  | cons path rest ih =>
      simp only [List.map_cons, stepAll]
      apply ih
      rw [List.map_cons, List.mem_cons] at silent
      by_cases here : trail = path.trail
      · right
        simp [step, invalidated, PermissionTree.permitAt_set, here]
      · rcases silent with (same | later) | silent
        · exact absurd same here
        · exact .inl later
        · right
          simp [step, invalidated, PermissionTree.permitAt_set, here, silent]

theorem stepAll_silence_inherits (answer : Nat → PermissionPath → Permit)
    (paths : List PermissionPath) (holder : Holder) :
    (holder.stepAll answer (paths.map (.set · .none))).2.inherits = holder.inherits := by
  induction paths generalizing holder with
  | nil =>
      rfl
  | cons path rest ih =>
      simp only [List.map_cons, stepAll, ih]
      rfl

theorem stepAll_silence_forgotten (answer : Nat → PermissionPath → Permit)
    (paths : List PermissionPath) (holder : Holder)
    (forgets : paths ≠ [] ∨ holder.Forgotten) :
    (holder.stepAll answer (paths.map (.set · .none))).2.Forgotten := by
  induction paths generalizing holder with
  | nil =>
      simpa [stepAll] using forgets
  | cons path rest ih =>
      simp only [List.map_cons, stepAll]
      exact ih _ (.inr (forgotten_invalidated _))

/-- Calls after which a holder inherits from exactly some permissibles, and its own
tree says nothing along a path. -/
def prepare (holder : Holder) (ids : List Nat) (path : PermissionPath) : List HolderCall :=
  holder.inherits.map .removeInherits ++ (ids.map .addInherits ++
    path.trail.inits.map (.set · .none))

/-- What a holder is like after these calls. -/
structure Prepared (ids : List Nat) (path : PermissionPath) (holder : Holder) : Prop where
  inherits_eq : holder.inherits = ids
  silent : ∀ shorter : PermissionPath, shorter.trail <+: path.trail →
    holder.tree.check .none shorter = .none
  forgotten : holder.Forgotten

theorem prepared_of_prepare (answer : Nat → PermissionPath → Permit) (holder : Holder)
    (start : Holder) (same : start.inherits = holder.inherits) (ids : List Nat)
    (path : PermissionPath) :
    Prepared ids path (start.stepAll answer (holder.prepare ids path)).2 := by
  rw [prepare, ← same, stepAll_append, stepAll_append]
  constructor
  · rw [stepAll_silence_inherits, stepAll_addInherits, stepAll_removeInherits,
      List.nil_append]
  · intro shorter isPrefix
    rw [PermissionTree.check_eq_deepest, Permit.orElse_none,
      PermissionTree.deepest_eq_none_iff]
    intro trail below
    apply stepAll_silence_permitAt
    left
    have onPath : trail <+: path.trail := below.trans isPrefix
    exact List.mem_map.2
      ⟨trail, (List.mem_inits _ _).2 onPath, PermissionPath.trail_of_prefix onPath⟩
  · apply stepAll_silence_forgotten
    left
    cases path.trail <;> simp

namespace Prepared

variable {ids : List Nat} {path longer : PermissionPath} {holder : Holder}

/-- Without a cache, a prepared holder answers what it inherits. -/
theorem ask_plain (prepared : Prepared ids longer holder) (plain : holder.cache = none)
    (isPrefix : path.trail <+: longer.trail) :
    holder.ask answer path = (inherited answer ids path, holder) := by
  rw [ask_of_no_cache plain, prepared.silent path isPrefix, Permit.none_orElse,
    prepared.inherits_eq]

/-- With a cache, a prepared holder that was asked for a path answers the same for
every longer one. -/
theorem ask_cached (prepared : Prepared ids longer holder) {cache : PermissionTree}
    (cached : holder.cache = some cache) (isPrefix : path.trail <+: longer.trail)
    (decides : inherited answer ids path ≠ .none) :
    (holder.ask answer path).1 = inherited answer ids path ∧
      ((holder.ask answer path).2.ask answer longer).1 = inherited answer ids path := by
  have fresh : cache.check .none path = .none := by
    rw [PermissionTree.check_eq_deepest, Permit.orElse_none,
      PermissionTree.deepest_eq_none_iff]
    intro trail _
    exact prepared.forgotten cache cached trail
  have asked : holder.ask answer path =
      (inherited answer ids path,
        { holder with cache := some (cache.set (inherited answer ids path) path) }) := by
    simp [ask, prepared.silent path isPrefix, cached, fresh, prepared.inherits_eq, decides]
  have remembered :
      (cache.set (inherited answer ids path) path).check .none longer =
        inherited answer ids path := by
    rw [PermissionTree.check_eq_deepest, Permit.orElse_none]
    apply PermissionTree.deepest_single _ _ isPrefix
    · intro trail elsewhere
      rw [PermissionTree.permitAt_set, if_neg elsewhere]
      exact prepared.forgotten cache cached trail
    · rw [PermissionTree.permitAt_set, if_pos rfl]
  rw [asked]
  refine ⟨rfl, ?_⟩
  simp [ask, prepared.silent longer List.prefix_rfl, remembered, decides]

end Prepared

theorem within_of_mem_prepare {holder : Holder} {inheritable : Nat → Prop} {ids : List Nat}
    {path : PermissionPath} {call : HolderCall} (within : ∀ id ∈ ids, inheritable id)
    (member : call ∈ holder.prepare ids path) :
    call.Within inheritable := by
  rw [prepare, List.mem_append, List.mem_append] at member
  rcases member with removes | adds | silences
  · rcases List.mem_map.1 removes with ⟨id, -, rfl⟩
    trivial
  · rcases List.mem_map.1 adds with ⟨id, listed, rfl⟩
    exact within id listed
  · rcases List.mem_map.1 silences with ⟨trail, -, rfl⟩
    trivial

/-- If no calls tell a cache from none, inheritance is uniform: a prepared holder
is asked for a path and then for a longer one. -/
theorem uniform_of_stepAll
    {holder : Holder} {inheritable : Nat → Prop} {cache : PermissionTree}
    (transparent : ∀ calls : List HolderCall, (∀ call ∈ calls, call.Within inheritable) →
      (stepAll answer calls { holder with cache := some cache }).1 =
        (stepAll answer calls { holder with cache := none }).1)
    {ids : List Nat} (within : ∀ id ∈ ids, inheritable id) :
    Uniform answer ids := by
  intro path longer isPrefix decides
  let probe : List HolderCall := [.check path .none, .check longer .none]
  have callsWithin : ∀ call ∈ holder.prepare ids longer ++ probe,
      call.Within inheritable := by
    intro call member
    rcases List.mem_append.1 member with prepares | probes
    · exact within_of_mem_prepare within prepares
    · rcases List.mem_pair.1 probes with rfl | rfl <;> trivial
  have same := transparent _ callsWithin
  rw [stepAll_append, stepAll_append] at same
  have answers := (List.append_inj same (by rw [stepAll_length, stepAll_length])).2
  have cachedReady :=
    prepared_of_prepare answer holder { holder with cache := some cache } rfl ids longer
  have plainReady :=
    prepared_of_prepare answer holder { holder with cache := none } rfl ids longer
  have cachedSome :=
    stepAll_cache_isSome answer (holder.prepare ids longer)
      { holder with cache := some cache }
  have plainNone :=
    stepAll_cache_isSome answer (holder.prepare ids longer) { holder with cache := none }
  generalize (stepAll answer _ { holder with cache := some cache }).2 = cached at *
  generalize (stepAll answer _ { holder with cache := none }).2 = plain at *
  rcases Option.isSome_iff_exists.1 cachedSome with ⟨kept, hasCache⟩
  have noCache : plain.cache = none := Option.not_isSome_iff_eq_none.1 (by simp [plainNone])
  rcases cachedReady.ask_cached hasCache isPrefix decides with ⟨-, second⟩
  have plainFirst : plain.ask answer path = (inherited answer ids path, plain) :=
    plainReady.ask_plain noCache isPrefix
  have plainSecond : plain.ask answer longer = (inherited answer ids longer, plain) :=
    plainReady.ask_plain noCache List.prefix_rfl
  simp only [probe, stepAll, step, Permit.orElse_none, plainFirst, plainSecond, second,
    List.cons.injEq, Except.ok.injEq, Option.some.injEq, and_true] at answers
  exact answers.2.symm

end Holder

/-- A cache of permissions can not be noticed, whatever calls are made on the
holder, exactly if whatever the holder could inherit for a path it inherits for
every longer path too. -/
theorem caching_transparent_iff
    {object size : Nat} {inheritable : Nat → Prop} {answer : Nat → PermissionPath → Permit}
    {holds : PermissionStore → Prop} {store : PermissionStore} {holder : Holder}
    (steady : Steady object size inheritable answer holds) (kept : holds store)
    (found : store.get? object = some (.holder holder))
    (within : ∀ id ∈ holder.inherits, inheritable id) :
    (∀ calls : List HolderCall, (∀ call ∈ calls, call.Within inheritable) →
      (HolderCall.runAll object calls (store.setCaching object true)).1 =
        (HolderCall.runAll object calls (store.setCaching object false)).1) ↔
    ∀ ids : List Nat, (∀ id ∈ ids, inheritable id) → Uniform answer ids := by
  have switched : ∀ (enabled : Bool) (calls : List HolderCall),
      (∀ call ∈ calls, call.Within inheritable) →
      (HolderCall.runAll object calls (store.setCaching object enabled)).1 =
        (Holder.stepAll answer calls
          { holder with cache := if enabled then some .root else none }).1 := by
    intro enabled calls callsWithin
    rw [PermissionStore.setCaching, PermissionStore.updateHolder_eq found]
    rcases
        steady.set_kept kept found
        { holder with cache := if enabled then some .root else none } with
      ⟨keptAfter, foundAfter⟩
    exact steady.runAll_eq callsWithin keptAfter foundAfter within
  constructor
  · intro transparent ids idsWithin
    apply Holder.uniform_of_stepAll _ idsWithin
    · exact holder
    · exact .root
    · intro calls callsWithin
      have same := transparent calls callsWithin
      rw [switched true calls callsWithin, switched false calls callsWithin] at same
      exact same
  · intro uniform calls callsWithin
    rw [switched true calls callsWithin, switched false calls callsWithin]
    have mirrors : Holder.Mirrors answer { holder with cache := some .root }
        { holder with cache := none } := {
      kind_eq := rfl
      tree_eq := rfl
      inherits_eq := rfl
      plain_cache := rfl
      sound := by
        apply Holder.Forgotten.sound
        intro cache cached trail
        cases cached
        exact PermissionTree.permitAt_root trail }
    exact mirrors.stepAll uniform callsWithin within

/-! ## Holders that stand on their own -/

/-- A holder that inherits nothing and has no cache answers from its own tree. -/
theorem PermissionStore.permitWithin_of_bare {store : PermissionStore} {id depth : Nat}
    {kind : HolderKind} {tree : PermissionTree}
    (found : store.get? id = some (.holder ⟨kind, tree, [], none⟩)) (path : PermissionPath) :
    permitWithin path (depth + 1) id store = (.ok (tree.check .none path), store) := by
  simp only [permitWithin, found, firstPermit, Option.map_none, Option.getD_none]
  by_cases decides : tree.check .none path = .none
  · simp [decides]
  · simp [decides]

/-- Such holders give steady answers to any other holder that inherits from them. -/
theorem Steady.of_bare {store : PermissionStore} {object : Nat} {inheritable : Nat → Prop}
    {trees : Nat → PermissionTree}
    (bare : ∀ id, inheritable id → id ≠ object ∧
      ∃ kind, store.get? id = some (.holder ⟨kind, trees id, [], none⟩)) :
    Steady object store.permissibles.length inheritable (fun id path => (trees id).check .none path)
      (fun other => other.permissibles.length = store.permissibles.length ∧
        ∀ id, inheritable id → other.get? id = store.get? id) where
  size_eq other kept := kept.1
  asks other kept id member path := by
    rcases bare id member with ⟨-, kind, found⟩
    have bound : id < store.permissibles.length := (List.getElem?_eq_some_iff.1 found).1
    rcases Nat.exists_eq_succ_of_ne_zero (Nat.ne_zero_of_lt bound) with ⟨depth, size⟩
    refine ⟨other, ?_, kept, rfl⟩
    rw [size]
    exact PermissionStore.permitWithin_of_bare ((kept.2 id member).trans found) path
  changes other kept holder := by
    refine ⟨?_, ?_⟩
    · simpa [PermissionStore.set] using kept.1
    · intro id member
      rw [← kept.2 id member]
      simp [PermissionStore.set, PermissionStore.get?, List.getElem?_set_ne,
        Ne.symm (bare id member).1]

/-- A permit with an exception below it. -/
def exceptionTree : PermissionTree :=
  (PermissionTree.root.set .allow ["a", "b"]).set .deny ["a", "b", "c"]

/-- A holder, the second one, that inherits a permit with an exception. -/
def exceptionStore : PermissionStore :=
  { PermissionStore.empty with
    permissibles :=
      [.holder { Holder.new (.group "base") with tree := exceptionTree },
        .holder { Holder.new (.group "heir") with inherits := [0] }] }

/-- Asked for the permit first, the holder with a cache does not see the exception. -/
theorem exceptionStore_caching_not_transparent :
    ¬ ∀ calls : List HolderCall, (∀ call ∈ calls, call.Within (· = 0)) →
      (HolderCall.runAll 1 calls (exceptionStore.setCaching 1 true)).1 =
        (HolderCall.runAll 1 calls (exceptionStore.setCaching 1 false)).1 := by
  have steady : Steady 1 exceptionStore.permissibles.length (· = 0)
      (fun _ path => exceptionTree.check .none path)
      (fun store => store.permissibles.length = exceptionStore.permissibles.length ∧
        ∀ id, id = 0 → store.get? id = exceptionStore.get? id) := by
    apply Steady.of_bare
    rintro id rfl
    exact ⟨by decide, _, rfl⟩
  rw [caching_transparent_iff steady ⟨rfl, fun _ _ => rfl⟩ rfl (by simp)]
  intro uniform
  have same := uniform [0] (by simp) ["a", "b"] ["a", "b", "c"] (by decide) (by decide)
  revert same
  decide

end Steward
