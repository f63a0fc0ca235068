import Steward.Config.Loading
import Steward.Proofs.Config.InPlace

/-!
# How loading the settings fails

The file of the settings may be missing, or hold no document, and what it says may not be
acceptable; whatever is asked of the place where the files are kept may be refused.  Loading then
fails with a fault of the configuration.

A document that is no mapping is another matter.  Fitting it to the template asks it for entries,
and what comes of that is no fault of the configuration (`Settings.load_fails_otherwise`).  Under a
template whose keys are texts that is so for every document but mappings.  If there are keys that
are numbers, a byte string or a list of whole numbers may pass, and is then found not to be
acceptable.

A mapping that is tangled is another matter, too.  What stands inside of itself is changed while it
is gone through, or is gone through without end.
-/

namespace Steward

open Yaml

namespace Template

variable {α β : Type} {identity : Identity} {wanted : List (Scalar × Doc)} {document : Doc}

/-! ## Steps that may fail -/

theorem exists_of_bind_ok {first : Except Fault α} {next : α → Except Fault β} {result : β}
    (done : first >>= next = .ok result) :
    ∃ value, first = .ok value ∧ next value = .ok result := by
  cases first with
  | error fault =>
      cases done
  | ok value =>
      exact ⟨value, rfl, done⟩

theorem bind_fails {first : Except Fault α} {next : α → Except Fault β}
    (fails : ∀ value, first = .ok value → ∃ fault, next value = .error fault) :
    ∃ fault, first >>= next = .error fault := by
  cases first with
  | error fault =>
      exact ⟨fault, rfl⟩
  | ok value =>
      exact fails value rfl

/-! ## Texts and bytes -/

/-- There are entries, and their keys are texts, as are all keys that name settings. -/
def HasTextKeys (wanted : List (Scalar × Doc)) : Prop :=
  wanted ≠ [] ∧ ∀ entry ∈ wanted, ∃ text, entry.1 = .text text

/-- A text has nothing under its characters. -/
theorem lookAt_character (length : Nat) (character : String) :
    lookAt (.map identity wanted) length (.scalar (.text character)) = .error .wrongType := by
  rw [lookAt, holds]
  cases Doc.lookup (.text character) wanted <;> rfl

theorem apply_text {text : String} (notEmpty : text ≠ "") :
    apply (.map identity wanted) (.scalar (.text text)) = .error .wrongType := by
  rw [apply.eq_def]
  dsimp only [parts]
  cases characters : text.toList with
  | nil =>
      exact absurd (String.toList_eq_nil_iff.1 characters) notEmpty
  | cons first rest =>
      rw [List.map_cons, List.forM, lookAt_character]
      rfl

theorem apply_bytes (bytes : List UInt8) (textKeys : HasTextKeys wanted) :
    ∃ fault, apply (.map identity wanted) (.scalar (.bytes bytes)) = .error fault := by
  rw [apply.eq_def]
  dsimp only [parts]
  refine bind_fails fun _ _ => ?_
  rcases textKeys with ⟨notEmpty, texts⟩
  cases wanted with
  | nil =>
      exact absurd rfl notEmpty
  | cons entry rest =>
      rcases texts entry List.mem_cons_self with ⟨text, isText⟩
      refine ⟨.wrongType, ?_⟩
      rw [List.forM, lookFor, isText]
      rfl

/-! ## Lists -/

/-- A whole number, as which a truth value counts. -/
def IsWhole (document : Doc) : Prop :=
  (∃ value, document = .scalar (.bool value)) ∨ ∃ value, document = .scalar (.int value)

theorem isWhole_of_place {length found : Nat} {key : Doc} (names : place length key = .ok found) :
    IsWhole key := by
  cases key with
  | scalar value =>
      cases value with
      | bool value =>
          exact .inl ⟨value, rfl⟩
      | int value =>
          exact .inr ⟨value, rfl⟩
      | _ =>
          cases names
  | _ =>
      cases names

/-- An item that was gone through names a place, and what is left are items that were there, and
mappings. -/
theorem keepItem_ok {inside : Doc → Doc → Board → Except Fault Work} {template : Doc}
    {progress after : List Doc × Bool × Board} {item : Doc}
    (kept : keepItem inside template progress item = .ok after) :
    IsWhole item ∧ ∀ left ∈ after.1, left ∈ progress.1 ∨ isMap left = true := by
  rcases progress with ⟨items, changed, board⟩
  rw [keepItem] at kept
  rcases exists_of_bind_ok kept with ⟨held, -, kept⟩
  cases held with
  | false =>
      rcases exists_of_bind_ok kept with ⟨found, names, kept⟩
      cases kept
      exact ⟨isWhole_of_place names, fun left isLeft => .inl (List.mem_of_mem_eraseIdx isLeft)⟩
  | true =>
      rcases exists_of_bind_ok kept with ⟨found, names, kept⟩
      refine ⟨isWhole_of_place names, ?_⟩
      dsimp only at kept
      split at kept
      · rcases exists_of_bind_ok kept with ⟨wanted, -, kept⟩
        split at kept
        · rcases exists_of_bind_ok kept with ⟨inner, -, kept⟩
          cases kept
          intro left isLeft
          dsimp only at isLeft
          split at isLeft
          · rename_i isMapping
            rcases List.mem_or_eq_of_mem_set isLeft with isLeft | rfl
            · exact .inl isLeft
            · exact .inr isMapping
          · exact .inl isLeft
        · cases kept
          exact fun left isLeft => .inl isLeft
      · cases kept
        exact fun left isLeft => .inl isLeft

/-- Who gets through the items of a list finds whole numbers only, and leaves no text among them. -/
theorem keepItems_ok {inside : Doc → Doc → Board → Except Fault Work} {template : Doc}
    {items : List Doc} {progress after : List Doc × Bool × Board}
    (kept : items.foldlM (keepItem inside template) progress = .ok after) :
    (∀ item ∈ items, IsWhole item) ∧
      ∀ left ∈ after.1, left ∈ progress.1 ∨ isMap left = true := by
  induction items generalizing progress with
  | nil =>
      cases kept
      exact ⟨List.forall_mem_nil _, fun left isLeft => .inl isLeft⟩
  | cons item rest ih =>
      rw [List.foldlM_cons] at kept
      rcases exists_of_bind_ok kept with ⟨between, first, kept⟩
      rcases keepItem_ok first with ⟨isWhole, stays⟩
      rcases ih kept with ⟨areWhole, stay⟩
      refine ⟨List.forall_mem_cons.2 ⟨isWhole, areWhole⟩, fun left isLeft => ?_⟩
      rcases stay left isLeft with isBetween | isMapping
      · exact stays left isBetween
      · exact .inr isMapping

/-- A text can not be added to a list that has none. -/
theorem addItem_text {items : List Doc} {changed : Bool} {entry : Scalar × Doc} {text : String}
    (isText : entry.1 = .text text) (noText : ∀ item ∈ items, IsWhole item ∨ isMap item = true) :
    addItem (items, changed) entry = .error .wrongType := by
  have absent : holds (.list none items) (.scalar (.text text)) = .ok false := by
    rw [holds]
    congr 1
    rw [List.any_eq_false]
    intro item isItem
    rcases noText item isItem with (⟨value, rfl⟩ | ⟨value, rfl⟩) | isMapping
    · exact Bool.false_ne_true
    · exact Bool.false_ne_true
    · rcases exists_of_isMap isMapping with ⟨identity, entries, rfl⟩
      exact Bool.false_ne_true
  rw [addItem, isText, absent]
  rfl

theorem apply_list {listIdentity : Identity} (items : List Doc) (textKeys : HasTextKeys wanted) :
    ∃ fault, apply (.map identity wanted) (.list listIdentity items) = .error fault := by
  rw [apply.eq_def]
  refine bind_fails fun after kept => ?_
  rcases keepItems_ok kept with ⟨areWhole, stay⟩
  rcases textKeys with ⟨notEmpty, texts⟩
  cases wanted with
  | nil =>
      exact absurd rfl notEmpty
  | cons entry rest =>
      rcases texts entry List.mem_cons_self with ⟨text, isText⟩
      have noText (item : Doc) (isLeft : item ∈ after.1) : IsWhole item ∨ isMap item = true :=
        (stay item isLeft).imp (areWhole item) id
      refine ⟨.wrongType, ?_⟩
      dsimp only
      rw [List.foldlM_cons, addItem_text isText noText]
      rfl

/-! ## Whatever is no mapping -/

/-- What is no mapping can not be fitted to a template whose keys are texts.  If there are other
keys it can not if it is neither a byte string nor a list. -/
theorem apply_fails (isOther : isMap document = false) (notEmpty : document ≠ .scalar (.text ""))
    (textKeys : HasTextKeys wanted ∨
      (∀ bytes, document ≠ .scalar (.bytes bytes)) ∧
        ∀ identity items, document ≠ .list identity items) :
    ∃ fault, apply (.map identity wanted) document = .error fault := by
  cases document with
  | scalar value =>
      cases value with
      | text text =>
          exact ⟨.wrongType, apply_text fun isEmpty => notEmpty (by rw [isEmpty])⟩
      | bytes bytes =>
          exact apply_bytes bytes (textKeys.resolve_right fun others => others.1 bytes rfl)
      | _ =>
          exact ⟨.wrongType, rfl⟩
  | list listIdentity items =>
      exact apply_list items (textKeys.resolve_right fun others => others.2 listIdentity items rfl)
  | map =>
      cases isOther
  | _ =>
      exact ⟨.wrongType, rfl⟩

/-- A list of whole numbers passes where these are the keys of the template. -/
example : apply (.map none [(.int 0, .scalar .null)]) (.list none [.scalar (.int 0)]) =
    .ok (.list none [.scalar (.int 0)], false) := by
  rfl

end Template

namespace Settings

open Template

section

variable {σ : Type} [FileStore σ] [DocumentFormat] [Validator] {path : FilePath} {shown : String}
  {template : Option FilePath}
  {loading : Loading σ} {document wanted : Doc} {first next : Nat}

/-! ## Outcomes -/

/-- A fault of the configuration, or settings as which a document was accepted. -/
def IsReported (outcome : Except LoadFault Settings) : Prop :=
  (∃ fault, outcome = .error (.config fault)) ∨
    ∃ document settings, ofValue (Doc.toValue document) = .ok settings ∧ outcome = .ok settings

omit [DocumentFormat] in
theorem check_isReported (document : Doc) : IsReported (check document) := by
  rw [check]
  cases checked : ofValue document.toValue with
  | ok settings =>
      exact .inr ⟨document, settings, checked, rfl⟩
  | error fault =>
      exact .inl ⟨fault, rfl⟩

theorem create_isReported : IsReported (create path shown template document loading).1 := by
  rw [create]
  split
  · exact .inl ⟨.unreadable, rfl⟩
  · split
    · exact .inl ⟨.unreadable, rfl⟩
    · exact check_isReported document

theorem update_isReported {fitted : Doc × Bool}
    (isRead : readDocument path first loading.disk = .ok (document, next))
    (fits : Template.apply wanted document = .ok fitted) :
    IsReported (update path shown wanted first loading).1 := by
  rcases fitted with ⟨fitted, changed⟩
  rw [update, isRead]
  dsimp only
  rw [fits]
  cases changed with
  | false =>
      exact check_isReported fitted
  | true =>
      dsimp only
      split
      · exact .inl ⟨.unreadable, rfl⟩
      · exact check_isReported fitted

/-- The template, and the document in the file of the settings, which is there. -/
def AreRead (path : FilePath) (template : Option FilePath) (disk : σ) (wanted document : Doc) :
    Prop :=
  FileStore.stands? disk path = some true ∧
    ∃ first next, readTemplate template disk = .ok (wanted, first) ∧
      readDocument path first disk = .ok (document, next)

omit [Validator] in
theorem readDocument_ne_empty {disk : σ}
    (isRead : readDocument path first disk = .ok (document, next)) :
    document ≠ .scalar (.text "") := by
  rw [readDocument] at isRead
  split at isRead
  · cases isRead
  · split at isRead
    · cases isRead
      split
      · rename_i isTruthy
        rintro rfl
        cases isTruthy
      · rintro ⟨⟩
    · cases isRead
    · cases isRead

/-- Where a document can not be fitted nothing is done. -/
theorem attempt_of_unfit {fault : Fault}
    (areRead : AreRead path template loading.disk wanted document)
    (unfit : Template.apply wanted document = .error fault) :
    attempt path shown template loading = (.error (.other fault), loading) := by
  rcases areRead with ⟨stands, first, next, readsTemplate, reads⟩
  rw [attempt, readsTemplate]
  dsimp only
  rw [stands]
  dsimp only
  rw [update, reads]
  dsimp only
  rw [unfit]

/-- Loading tells of a fault of the configuration, or settings, unless there is a document that is
no mapping, or one that is tangled. -/
theorem attempt_cases (shown : String)
    (isMapping : ∀ wanted first, readTemplate template loading.disk = .ok (wanted, first) →
      isMap wanted = true)
    (templateReads : ∀ fault, readTemplate template loading.disk ≠ .error (.other fault))
    (documentReads : ∀ wanted first fault,
      readTemplate template loading.disk = .ok (wanted, first) →
      readDocument path first loading.disk ≠ .error (.other fault)) :
    IsReported (attempt path shown template loading).1 ∨
      ∃ wanted document fault, AreRead path template loading.disk wanted document ∧
        (isMap document = false ∨ ¬ IsUntangled wanted document) ∧
        attempt path shown template loading = (.error (.other fault), loading) := by
  cases readsTemplate : readTemplate template loading.disk with
  | error fault =>
      rw [attempt, readsTemplate]
      cases fault with
      | config fault =>
          exact .inl (.inl ⟨fault, rfl⟩)
      | other fault =>
          exact absurd readsTemplate (templateReads fault)
  | ok read =>
      rcases read with ⟨wanted, first⟩
      cases stands : FileStore.stands? loading.disk path with
      | none =>
          rw [attempt, readsTemplate]
          dsimp only
          rw [stands]
          exact .inl (.inl ⟨.unreadable, rfl⟩)
      | some isThere =>
          cases isThere with
          | false =>
              rw [attempt, readsTemplate]
              dsimp only
              rw [stands]
              exact .inl create_isReported
          | true =>
              have updates : attempt path shown template loading =
                  update path shown wanted first loading := by
                rw [attempt, readsTemplate]
                dsimp only
                rw [stands]
              cases reads : readDocument path first loading.disk with
              | error fault =>
                  cases fault with
                  | config fault =>
                      rw [updates, update, reads]
                      exact .inl (.inl ⟨fault, rfl⟩)
                  | other fault =>
                      exact absurd reads (documentReads wanted first fault readsTemplate)
              | ok read =>
                  rcases read with ⟨document, next⟩
                  cases fits : Template.apply wanted document with
                  | ok fitted =>
                      exact .inl (updates ▸ update_isReported reads fits)
                  | error fault =>
                      have areRead : AreRead path template loading.disk wanted document :=
                        ⟨stands, first, next, readsTemplate, reads⟩
                      refine .inr ⟨wanted, document, fault, areRead, ?_,
                        attempt_of_unfit areRead fits⟩
                      rw [or_iff_not_imp_right, not_not, Bool.eq_false_iff]
                      intro untangled isDocument
                      have isTemplate := isMapping wanted first readsTemplate
                      rw [apply_eq_fit untangled isTemplate isDocument] at fits
                      cases fits

/-- Settings are loaded checked, or their loading fails with a fault of the configuration.  It can
fail otherwise only where the file of the settings holds a document that is no mapping, or one that
is tangled.  It does so where the document is a text, a number, a time or a set, and where it is no
mapping and the keys of the template are texts; nothing is written then. -/
theorem load_fails_otherwise (path : FilePath) (shown : String) (template : Option FilePath)
    (loading : Loading σ)
    (isMapping : ∀ wanted first, readTemplate template loading.disk = .ok (wanted, first) →
      isMap wanted = true)
    (templateReads : ∀ fault, readTemplate template loading.disk ≠ .error (.other fault))
    (documentReads : ∀ wanted first fault,
      readTemplate template loading.disk = .ok (wanted, first) →
      readDocument path first loading.disk ≠ .error (.other fault)) :
    ((∃ fault, (load path shown template loading).1 = .error (.configuration shown fault)) ∨
      (∃ document settings, ofValue (Doc.toValue document) = .ok settings ∧
        (load path shown template loading).1 = .ok settings) ∨
      ∃ wanted document fault, AreRead path template loading.disk wanted document ∧
        (isMap document = false ∨ ¬ IsUntangled wanted document) ∧
        load path shown template loading =
          (.error (.fault fault "the document can not be used"), loading)) ∧
    ∀ identity wanted document, AreRead path template loading.disk (.map identity wanted) document →
      isMap document = false →
      HasTextKeys wanted ∨ (∀ bytes, document ≠ .scalar (.bytes bytes)) ∧
        (∀ identity items, document ≠ .list identity items) →
      ∃ fault, load path shown template loading =
        (.error (.fault fault "the document can not be used"), loading) := by
  constructor
  · rcases attempt_cases shown isMapping templateReads documentReads with
      (⟨fault, fails⟩ | ⟨document, settings, checked, loads⟩) |
      ⟨wanted, document, fault, areRead, isOther, fails⟩
    · exact .inl ⟨fault, by rw [load, fails]; rfl⟩
    · exact .inr (.inl ⟨document, settings, checked, by rw [load, loads]; rfl⟩)
    · exact .inr (.inr ⟨wanted, document, fault, areRead, isOther, by rw [load, fails]; rfl⟩)
  · rintro identity wanted document areRead isOther textKeys
    have notEmpty : document ≠ .scalar (.text "") := by
      rcases areRead with ⟨-, _, _, -, reads⟩
      exact readDocument_ne_empty reads
    rcases apply_fails isOther notEmpty textKeys with ⟨fault, unfit⟩
    exact ⟨fault, by rw [load, attempt_of_unfit areRead unfit]; rfl⟩

end

/-! ## Settings in a list -/

namespace Listed

/-- A disk whose file of the settings is a list of a text. -/
def disk : Disk := ⟨OrderedMap.empty.insert ["config.yml"] (.text "- a\n")⟩

/-- Whether a reading gives the list of a text. -/
def isListed (text : String) : Except LoadFault (Doc × Nat) → Bool
  | .ok (.list (some 0) [.scalar (.text other)], 2) => other == text
  | _ => false

theorem readDocument_listed :
    readDocument ["config.yml"] 0 disk = .ok (.list (some 0) [.scalar (.text "a")], 2) := by
  -- Documents have no decidable equality, so a test of the reading is evaluated instead of it.
  have listed : isListed "a" (readDocument ["config.yml"] 0 disk) = true := by
    decide +kernel
  generalize readDocument ["config.yml"] 0 disk = answer at listed ⊢
  unfold isListed at listed
  split at listed
  · rw [eq_of_beq listed]
  · cases listed

theorem standardDocument_keys :
    ∃ wanted, standardDocument = .map none wanted ∧ HasTextKeys wanted := by
  refine ⟨_, rfl, List.cons_ne_nil _ _, fun entry isEntry => ?_⟩
  rcases List.mem_map.1 isEntry with ⟨field, -, rfl⟩
  exact ⟨field.1, rfl⟩

/-- Loading these settings fails with what is no fault of the configuration. -/
theorem listed_settings_fail :
    (∀ wanted first, readTemplate none disk = .ok (wanted, first) → isMap wanted = true) ∧
      (∀ fault, readTemplate none disk ≠ .error (.other fault)) ∧
      (∀ wanted first fault, readTemplate none disk = .ok (wanted, first) →
        readDocument ["config.yml"] first disk ≠ .error (.other fault)) ∧
      ∃ fault, load ["config.yml"] "config.yml" none ⟨disk, []⟩ =
        (.error (.fault fault "the document can not be used"), ⟨disk, []⟩) := by
  have isMapping (wanted : Doc) (first : Nat)
      (reads : readTemplate none disk = .ok (wanted, first)) :
      isMap wanted = true := by
    cases reads
    rfl
  have templateReads (fault : Fault) : readTemplate none disk ≠ .error (.other fault) := by
    rintro ⟨⟩
  have documentReads (wanted : Doc) (first : Nat) (fault : Fault)
      (reads : readTemplate none disk = .ok (wanted, first)) :
      readDocument ["config.yml"] first disk ≠ .error (.other fault) := by
    cases reads
    rw [readDocument_listed]
    rintro ⟨⟩
  rcases standardDocument_keys with ⟨wanted, isStandard, textKeys⟩
  have areRead : AreRead ["config.yml"] none disk (.map none wanted)
      (.list (some 0) [.scalar (.text "a")]) :=
    ⟨rfl, 0, 2, isStandard ▸ rfl, readDocument_listed⟩
  exact ⟨isMapping, templateReads, documentReads,
    (load_fails_otherwise ["config.yml"] "config.yml" none ⟨disk, []⟩ isMapping templateReads
      documentReads).2 none wanted _ areRead rfl (.inl textKeys)⟩

end Listed

end Settings

end Steward
