import Steward.Document.Storage
import Steward.Proofs.OrderedMap

/-!
# What a write changes on a disk

A disk accepts a file where no directory stands in its place and no file in the
place of a directory above it.  An accepted write puts the text where it belongs;
beyond that, a write only makes directories where nothing was.  So a write to one
file changes no other, and two files side by side are accepted or not
independently of each other.
-/

namespace Steward.Disk

/-- Whether a file can be written. -/
def Accepts (disk : Disk) (path : FilePath) : Prop :=
  disk.get? path ≠ some .directory ∧
    ∀ above, above <+: path.dropLast → ∀ text, disk.get? above ≠ some (.text text)

@[simp]
theorem get?_nil (disk : Disk) : disk.get? [] = some .directory := by
  rfl

theorem get?_insert (disk : Disk) {path : FilePath} (below : path ≠ []) (node : FileNode)
    (other : FilePath) :
    get? ⟨disk.nodes.insert path node⟩ other =
      if path = other then some node else disk.get? other := by
  cases other with
  | nil =>
      simp [below]
  | cons segment rest =>
      simp [get?, OrderedMap.get?_insert]

/-! ## Making directories -/

theorem makeDirectory_ok {disk made : Disk} {path : FilePath} {isLast : Bool}
    (makes : disk.makeDirectory path isLast = .ok made) (other : FilePath) :
    made.get? other = disk.get? other ∨
      disk.get? other = none ∧ made.get? other = some .directory ∧ other = path := by
  unfold makeDirectory at makes
  split at makes
  · cases makes
    exact .inl rfl
  · cases makes
  · rename_i absent
    cases makes
    have below : path ≠ [] := by
      rintro rfl
      cases absent
    rw [get?_insert disk below]
    split
    · rename_i same
      subst same
      exact .inr ⟨absent, rfl, rfl⟩
    · exact .inl rfl

theorem exists_makeDirectory_iff {disk : Disk} {path : FilePath} (isLast : Bool) :
    (∃ made, disk.makeDirectory path isLast = .ok made) ↔
      ∀ text, disk.get? path ≠ some (.text text) := by
  unfold makeDirectory
  cases stands : disk.get? path with
  | none =>
      simp
  | some node =>
      cases node <;> simp

/-- Making directories only adds directories, on the way. -/
theorem makeDirectories_ok {disk made : Disk} {above rest : FilePath}
    (makes : disk.makeDirectories above rest = .ok made) (other : FilePath) :
    made.get? other = disk.get? other ∨
      disk.get? other = none ∧ made.get? other = some .directory ∧
        ∃ part, part <+: rest ∧ other = above ++ part := by
  induction rest generalizing disk above with
  | nil =>
      cases makes
      exact .inl rfl
  | cons segment rest ih =>
      rw [makeDirectories] at makes
      split at makes
      · cases makes
      · rename_i first makesFirst
        have here := makeDirectory_ok makesFirst other
        rcases ih makes with same | ⟨absent, directory, part, isPart, rfl⟩
        · rw [same]
          rcases here with same | ⟨absent, directory, rfl⟩
          · exact .inl same
          · exact .inr ⟨absent, directory, [segment], by simp, rfl⟩
        · rcases here with same | ⟨-, impossible, -⟩
          · refine .inr ⟨same ▸ absent, directory, segment :: part, ?_, by simp⟩
            exact List.cons_prefix_cons.2 ⟨rfl, isPart⟩
          · rw [impossible] at absent
            cases absent

theorem text_makeDirectory_iff {disk made : Disk} {path : FilePath} {isLast : Bool}
    (makes : disk.makeDirectory path isLast = .ok made) (other : FilePath) (text : String) :
    made.get? other = some (.text text) ↔ disk.get? other = some (.text text) := by
  rcases makeDirectory_ok makes other with same | ⟨absent, directory, -⟩
  · rw [same]
  · simp [absent, directory]

/-- Directories can be made exactly if no file is in the way. -/
theorem exists_makeDirectories_iff {disk : Disk} {above rest : FilePath} :
    (∃ made, disk.makeDirectories above rest = .ok made) ↔
      ∀ part, part <+: rest → part ≠ [] →
        ∀ text, disk.get? (above ++ part) ≠ some (.text text) := by
  induction rest generalizing disk above with
  | nil =>
      constructor
      · rintro - part isPart notEmpty
        exact absurd (List.prefix_nil.1 isPart) notEmpty
      · intro _
        exact ⟨disk, rfl⟩
  | cons segment rest ih =>
      constructor
      · rintro ⟨made, makes⟩ part isPart notEmpty text
        rw [makeDirectories] at makes
        split at makes
        · cases makes
        · rename_i first makesFirst
          cases part with
          | nil =>
              exact absurd rfl notEmpty
          | cons head part =>
              rcases List.cons_prefix_cons.1 isPart with ⟨rfl, isBelow⟩
              by_cases last : part = []
              · subst last
                exact (exists_makeDirectory_iff _).1 ⟨first, makesFirst⟩ text
              · have clear := ih.1 ⟨made, makes⟩ part isBelow last text
                rw [List.append_assoc, List.singleton_append, Ne,
                  text_makeDirectory_iff makesFirst] at clear
                exact clear
      · intro clear
        have here : ∀ text, disk.get? (above ++ [segment]) ≠ some (.text text) :=
          clear [segment] (by simp) (by simp)
        rcases (exists_makeDirectory_iff rest.isEmpty).2 here with ⟨first, makesFirst⟩
        have below : ∀ part, part <+: rest → part ≠ [] →
            ∀ text, first.get? (above ++ [segment] ++ part) ≠ some (.text text) := by
          intro part isPart _ text
          rw [Ne, text_makeDirectory_iff makesFirst, List.append_assoc]
          exact clear (segment :: part) (List.cons_prefix_cons.2 ⟨rfl, isPart⟩) (by simp) text
        rcases ih.2 below with ⟨made, makes⟩
        exact ⟨made, by simp only [makeDirectories, makesFirst, makes]⟩

/-! ## Writing a file -/

theorem put_eq {disk : Disk} {path : FilePath} {content : String}
    (noDirectory : disk.get? path ≠ some .directory) :
    disk.put path content = .ok ⟨disk.nodes.insert path (.text content)⟩ := by
  unfold put
  split
  · rename_i directory
    exact absurd directory noDirectory
  · rfl

theorem ne_nil_of_ne_directory {disk : Disk} {path : FilePath}
    (noDirectory : disk.get? path ≠ some .directory) : path ≠ [] := by
  rintro rfl
  exact noDirectory rfl

/-- A path is no part of itself without its last segment. -/
theorem not_prefix_dropLast {path other : FilePath} (below : path ≠ [])
    (same : path.length = other.length) : ¬ other <+: path.dropLast := by
  intro isPart
  have shorter := isPart.length_le
  have positive := List.length_pos_iff.2 below
  rw [List.length_dropLast] at shorter
  omega

theorem makeDirectories_of_accepts {disk : Disk} {path : FilePath}
    (accepts : disk.Accepts path) :
    ∃ made, disk.makeDirectories [] path.dropLast = .ok made ∧
      made.get? path ≠ some .directory := by
  have clear : ∀ part, part <+: path.dropLast → part ≠ [] →
      ∀ text, disk.get? ([] ++ part) ≠ some (.text text) :=
    fun part isPart _ => accepts.2 part isPart
  rcases exists_makeDirectories_iff.2 clear with ⟨made, makes⟩
  refine ⟨made, makes, ?_⟩
  rcases makeDirectories_ok makes path with same | ⟨-, -, part, isPart, samePath⟩
  · rw [same]
    exact accepts.1
  · rw [List.nil_append] at samePath
    subst samePath
    exact absurd isPart (not_prefix_dropLast (ne_nil_of_ne_directory accepts.1) rfl)

theorem write_of_accepts {disk : Disk} {path : FilePath} (accepts : disk.Accepts path)
    (content : String) :
    (disk.write path content).1 = .ok () ∧
      (disk.write path content).2.get? path = some (.text content) := by
  rcases makeDirectories_of_accepts accepts with ⟨made, makes, noDirectory⟩
  have below := ne_nil_of_ne_directory noDirectory
  simp only [write, makes, put_eq noDirectory, true_and]
  rw [get?_insert made below, if_pos rfl]

/-- Where a file is not accepted, a write stops at a directory above it, or finds
a directory in its place. -/
theorem cases_of_not_accepts {disk : Disk} {path : FilePath} (refuses : ¬ disk.Accepts path) :
    (∃ failure, disk.makeDirectories [] path.dropLast = .error failure) ∨
      ∃ made, disk.makeDirectories [] path.dropLast = .ok made ∧
        disk.get? path = some .directory ∧ made.get? path = some .directory := by
  rcases makes : disk.makeDirectories [] path.dropLast with failure | made
  · exact .inl ⟨failure, rfl⟩
  · have clear := exists_makeDirectories_iff.1 ⟨made, makes⟩
    by_cases directory : disk.get? path = some .directory
    · refine .inr ⟨made, rfl, directory, ?_⟩
      rcases makeDirectories_ok makes path with same | ⟨absent, -⟩
      · rw [same, directory]
      · rw [directory] at absent
        cases absent
    · refine absurd ⟨directory, ?_⟩ refuses
      intro above isAbove text
      by_cases root : above = []
      · subst root
        simp
      · exact clear above isAbove root text

/-- A write is refused where a file is not accepted. -/
theorem write_of_not_accepts {disk : Disk} {path : FilePath} (refuses : ¬ disk.Accepts path)
    (content : String) :
    (∃ failure, (disk.write path content).1 = .error failure) ∧
      (disk.write path content).2.get? path = disk.get? path := by
  rcases cases_of_not_accepts refuses with ⟨failure, makes⟩ | ⟨made, makes, directory, still⟩
  · simp [write, makes]
  · simp [write, makes, put, directory, still]

/-- Beyond the file itself, a write only makes directories above it where nothing
was. -/
theorem get?_write (disk : Disk) (path : FilePath) (content : String) {other : FilePath}
    (elsewhere : other ≠ path) :
    (disk.write path content).2.get? other = disk.get? other ∨
      disk.get? other = none ∧ (disk.write path content).2.get? other = some .directory ∧
        other <+: path.dropLast := by
  rcases makes : disk.makeDirectories [] path.dropLast with failure | made
  · left
    simp only [write, makes]
  · have onTheWay := makeDirectories_ok makes other
    simp only [List.nil_append, exists_eq_right'] at onTheWay
    by_cases directory : made.get? path = some .directory
    · simp only [write, makes, put, directory]
      exact onTheWay
    · simp only [write, makes, put_eq directory]
      rw [get?_insert made (ne_nil_of_ne_directory directory), if_neg (Ne.symm elsewhere)]
      exact onTheWay

/-- Writing a file changes nothing at the place of a file beside it. -/
theorem get?_write_beside (disk : Disk) {path other : FilePath} (content : String)
    (elsewhere : other ≠ path) (beside : path.length = other.length) :
    (disk.write path content).2.get? other = disk.get? other := by
  rcases get?_write disk path content elsewhere with unchanged | ⟨-, -, isAbove⟩
  · exact unchanged
  · have below : path ≠ [] := by
      rintro rfl
      exact elsewhere (List.length_eq_zero_iff.1 beside.symm)
    exact absurd isAbove (not_prefix_dropLast below beside)

/-- Writing a file does not change whether a file beside it is accepted. -/
theorem accepts_write_iff (disk : Disk) {path other : FilePath} (content : String)
    (beside : path.length = other.length) :
    (disk.write path content).2.Accepts other ↔ disk.Accepts other := by
  have inPlace : (disk.write path content).2.get? other = some .directory ↔
      disk.get? other = some .directory := by
    by_cases same : other = path
    · subst same
      by_cases accepts : disk.Accepts other
      · simp [(write_of_accepts accepts content).2, accepts.1]
      · rw [(write_of_not_accepts accepts content).2]
    · rw [get?_write_beside disk content same beside]
  have aboveIt : ∀ above, above <+: other.dropLast → ∀ text,
      (disk.write path content).2.get? above = some (.text text) ↔
        disk.get? above = some (.text text) := by
    intro above isAbove text
    by_cases root : above = []
    · subst root
      simp
    · have elsewhere : above ≠ path := by
        rintro rfl
        have below : other ≠ [] := by
          rintro rfl
          exact root (List.prefix_nil.1 isAbove)
        exact not_prefix_dropLast below beside.symm isAbove
      rcases get?_write disk path content elsewhere with same | ⟨absent, directory, -⟩
      · rw [same]
      · simp [absent, directory]
  unfold Accepts
  rw [Ne, inPlace]
  refine and_congr_right fun _ => ?_
  exact forall_congr' fun above => forall_congr' fun isAbove => forall_congr' fun text =>
    not_congr (aboveIt above isAbove text)

end Steward.Disk
