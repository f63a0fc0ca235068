import Steward.Proofs.Command.Aborting
import Steward.Proofs.Loop.Following
import Steward.Proofs.Parse.Layouts

/-!
# Where a member is not found

A member is mentioned by a reference: a point, or a run of letters and digits at the cursor.  When
nobody in the guild is found for it, the error marks a span of the line.  If the user was at hand,
the span was made when the reference had just been read.  If the user had to be fetched, it is made
from the cursor as it stands when the lookups begin, that is behind all that was read meanwhile.

`Parser.member_span_exact_iff` says when the span is the reference, whatever else was read, whatever
else the loop runs, and however long the lookups take.
-/

namespace Steward

variable {F σ J : Type}

/-! ## How lookups fail -/

namespace LookupJob

/-- The failure to find the member that a user is. -/
def noMember (id : Int) (span : Span) : Failure :=
  unknown ("No member for user `" ++ toString id ++ "`") span

/-- The failure to find a user by its id. -/
def noUser (id : Nat) (span : Span) : Failure :=
  unknown ("No user by id `" ++ toString id ++ "`") span

/-- A text that begins otherwise reports something else. -/
theorem noMember_ne_unknown {id : Int} {span other : Span} {text : String}
    (differs : text.toList.take 4 ≠ "No m".toList) : noMember id span ≠ unknown text other := by
  intro same
  have texts : "No member for user `" ++ toString id ++ "`" = text := by
    cases same
    rfl
  rw [← texts, String.toList_append, String.toList_append] at differs
  exact differs rfl

theorem span_eq_of_noMember {id other : Int} {span place : Span}
    (same : noMember id span = noMember other place) : span = place := by
  simp only [noMember, unknown, Failure.parse.injEq, ParseError.mk.injEq, Option.some.injEq] at same
  exact same.2

theorem noMember_ne_noUser {id : Int} {user : Nat} {span other : Span} :
    noMember id span ≠ noUser user other := by
  apply noMember_ne_unknown
  rw [String.toList_append, String.toList_append]
  exact (by decide : "No u".toList ≠ "No m".toList)

variable [Journaled σ] {loop : Loop σ J} {history : List (Happening σ J)} {failure : Failure}

/-- When the platform is asked and fails, it is by a failure of its own. -/
theorem fetch_fails {request : Request} {remote : Option Remote}
    (ends : (fetch request remote : Course σ J _).attempt.Ends history (.error (.failed failure)))
    (answered : ∀ on reply, .waited on reply ∈ history → on.Answered loop reply) :
    ∃ text, failure = .unexpected text := by
  unfold fetch at ends
  rcases Course.ends_bind ends with ⟨first, _, rest, -, goesOn, rfl⟩ | ⟨interrupt, enters, -⟩
  · rcases remote with _ | ⟨account, delay, answer⟩
    · cases (Course.ends_pure_iff.1 goesOn).2
    · cases delay with
      | none =>
          cases answer with
          | failing text =>
              cases (Course.ends_fail_iff.1 goesOn).2
              exact ⟨text, rfl⟩
          | _ =>
              cases (Course.ends_pure_iff.1 goesOn).2
      | some seconds =>
          rcases Course.ends_bind goesOn with
            ⟨sleeps, _, last, -, decides, rfl⟩ | ⟨interrupt, sleeps, isFailed⟩
          · cases answer with
            | failing text =>
                cases (Course.ends_fail_iff.1 decides).2
                exact ⟨text, rfl⟩
            | _ =>
                cases (Course.ends_pure_iff.1 decides).2
          · cases isFailed
            have calm := fun on reply member => answered on reply (List.mem_append_right first member)
            exact absurd sleeps (Course.not_sleep_failed calm)
  · cases Course.ends_modify enters

/-- A member that is fetched in vain is reported at the span of the lookup. -/
theorem fetchMember_fails {guild : Guild} {id : Int} {span : Span} {error : ParseError}
    (ends : (fetchMember guild id span : Course σ J Value).attempt.Ends history
      (.error (.failed (.parse error))))
    (answered : ∀ on reply, .waited on reply ∈ history → on.Answered loop reply) :
    .parse error = noMember id span := by
  unfold fetchMember at ends
  rcases Course.ends_bind ends with ⟨first, found, rest, -, decides, rfl⟩ |
    ⟨interrupt, fetches, isFailed⟩
  · cases found with
    | none =>
        cases (Course.ends_fail_iff.1 decides).2
        rfl
    | some account =>
        cases (Course.ends_pure_iff.1 decides).2
  · cases isFailed
    rcases fetch_fails fetches answered with ⟨text, absurdity⟩
    cases absurdity

variable {custom : F → Course σ J Value}

/-- A user that is fetched in vain is reported by its id. -/
theorem user_fails {client : Client} {id : Nat} {span : Span} {error : ParseError}
    (ends : (run custom (.user client id span)).attempt.Ends history
      (.error (.failed (.parse error))))
    (answered : ∀ on reply, .waited on reply ∈ history → on.Answered loop reply) :
    .parse error = noUser id span := by
  unfold run at ends
  rcases Course.ends_bind ends with ⟨first, found, rest, -, decides, rfl⟩ |
    ⟨interrupt, fetches, isFailed⟩
  · cases found with
    | none =>
        cases (Course.ends_fail_iff.1 decides).2
        rfl
    | some account =>
        cases (Course.ends_pure_iff.1 decides).2
  · cases isFailed
    rcases fetch_fails fetches answered with ⟨text, absurdity⟩
    cases absurdity

/-- The member that a fetched user is fails to be found as the user did, or is reported at the span
of its own lookup. -/
theorem memberAfter_fails {guild : Guild} {earlier : TaskId} {span : Span} {error : ParseError}
    (ends : (run custom (.memberAfter guild earlier span)).attempt.Ends history
      (.error (.failed (.parse error))))
    (answered : ∀ on reply, .waited on reply ∈ history → on.Answered loop reply) :
    loop.exit? earlier = some (.error (.failed (.parse error))) ∨
      ∃ id, .parse error = noMember id span := by
  unfold run at ends
  rcases Course.ends_bind ends with ⟨first, value, rest, -, decides, rfl⟩ |
    ⟨interrupt, waits, isFailed⟩
  · have calm := fun on reply member => answered on reply (List.mem_append_right first member)
    cases value with
    | account account =>
        dsimp only at decides
        cases known : guild.member? account.id with
        | some found =>
            rw [known] at decides
            cases (Course.ends_pure_iff.1 decides).2
        | none =>
            rw [known] at decides
            exact .inr ⟨_, fetchMember_fails decides calm⟩
    | _ =>
        cases (Course.ends_fail_iff.1 decides).2
  · cases isFailed
    rw [Course.ends_wait waits] at answered
    rcases answered _ _ List.mem_cons_self with absurdity | ended
    · cases absurdity
    · exact .inl ended

end LookupJob

/-! ## References -/

namespace Reader

/-- The characters of a reference at the cursor: a point, or a run of letters and digits. -/
def reference (reader : Reader) : List Char :=
  if reader.current = '.' then ['.'] else (reader.upcoming Parser.isReference).toList

/-- The span from the first to the last character of the reference at the cursor. -/
def referenceSpan (reader : Reader) : Span :=
  reader.span reader.index ((reader.index + reader.reference.length : Nat) - 1 : Int)

theorem spanFrom_passed (reader : Reader) (count start : Nat) :
    (reader.passed count).spanFrom start =
      reader.span start (max (start : Int) ((reader.index + count : Nat) - 1 : Int)) := by
  rfl

/-- A span that begins at the cursor is that of the reference if it ends with it. -/
theorem span_eq_referenceSpan_iff (reader : Reader) (stop : Nat) :
    reader.span reader.index (max (reader.index : Int) ((stop : Int) - 1)) = reader.referenceSpan ↔
      max (reader.index + 1) stop = reader.index + reader.reference.length := by
  simp only [referenceSpan, span, Span.mk.injEq, true_and]
  omega

end Reader

namespace Parser

open LookupJob Reader

variable {place : Origin} {scan : Scan F}

/-- A reference is passed, whoever it is for. -/
theorem readUser_reader (origin : Option Origin) (scan : Scan F) :
    (readUser origin scan).2.reader = scan.reader.passed scan.reader.reference.length := by
  rw [reference]
  simp only [readUser]
  split
  · rename_i point
    cases remaining : scan.reader.remaining with
    | nil =>
        rw [current_eq, remaining] at point
        exact absurd point (by decide : endMark ≠ '.')
    | cons c rest =>
        exact advance_passed remaining
  · rw [collect_eq_passed]
    dsimp only
    split
    · rfl
    · split
      · rfl
      · split
        · split
          · rfl
          · rfl
        · split
          · rfl
          · rfl

/-- A user that is not found by its name is reported as a user. -/
theorem readUser_not_noMember {origin : Option Origin} {id : Int} {span : Span} :
    (readUser origin scan).1 ≠ .settled (.error (noMember id span)) := by
  have author : ((origin.map Origin.author).elim (.error noAttribute) .ok : Except Failure Value) ≠
      .error (noMember id span) := by
    cases origin with
    | none =>
        rintro ⟨⟩
    | some place =>
        rintro ⟨⟩
  have user : ∀ text other, (.error (.parse ⟨"No user by `" ++ text ++ "`", some other⟩) :
      Except Failure Value) ≠ .error (noMember id span) := by
    intro text other same
    refine noMember_ne_unknown ?_ (Except.error.inj same).symm
    rw [String.toList_append, String.toList_append]
    exact (by decide : "No u".toList ≠ "No m".toList)
  intro same
  simp only [readUser, settle] at same
  split at same
  · exact author (ParseResult.settled.inj same)
  · split at same
    · exact author (ParseResult.settled.inj same)
    · split at same
      · cases same
      · split at same
        · split at same
          · cases same
          · cases same
        · split at same
          · cases same
          · exact user _ _ (ParseResult.settled.inj same)

/-- Reading a member stays on the line. -/
theorem readMember_text (origin : Option Origin) (scan : Scan F) :
    (readMember origin scan).2.reader.text = scan.reader.text := by
  have passed := readUser_reader origin scan
  simp only [readMember]
  split
  · rfl
  · split
    · rfl
    · generalize readUser _ scan = read at passed ⊢
      rcases read with ⟨result, after⟩
      have same : after.reader.text = scan.reader.text := by
        dsimp only at passed
        rw [passed]
        rfl
      split
      all_goals
        rename_i found
        cases found
      · split
        · exact same
        · exact same
      · exact same
      · exact same
      · exact same
      · exact same

/-- How a member comes out of its reading, in each of the cases that leave it to be looked up. -/
inductive Mentions (place : Origin) (scan : Scan F) : ParseResult Nat → List (Launch F) → Prop where
  | settled {outcome : Except Failure Value} {lookups : List (Launch F)}
      (other : ∀ id span, outcome ≠ .error (noMember id span)) :
      Mentions place scan (.settled outcome) lookups
  | atHand {id : Int} (found : (readUser (some place) scan).1.isPending = false) :
      Mentions place scan (.pending scan.lookups.length)
        (scan.lookups ++ [⟨.member id (scan.reader.span scan.reader.index
          (max (scan.reader.index : Int)
            ((scan.reader.index + scan.reader.reference.length : Nat) - 1 : Int))), false⟩])
  | fetched {id : Nat} {span : Span} (missing : (readUser (some place) scan).1.isPending = true) :
      Mentions place scan (.pending (scan.lookups.length + 1))
        (scan.lookups ++ [⟨.user id span, false⟩,
          ⟨.memberAfter scan.lookups.length scan.reader.index, false⟩])

theorem readMember_mentions (place : Origin) (scan : Scan F) :
    Mentions place scan (readMember (some place) scan).1 (readMember (some place) scan).2.lookups := by
  have user := readUser_cases (some place) scan
  have passed := readUser_reader (some place) scan
  have other := @readUser_not_noMember _ scan (some place)
  simp only [readMember, settle]
  split
  · refine .settled ?_
    intro id span same
    exact noMember_ne_unknown (by decide) (Except.error.inj same).symm
  · generalize found : readUser (some place) scan = read at user passed other ⊢
    rcases read with ⟨result, after⟩
    rcases user with ⟨outcome, settled, same⟩ | ⟨pending, id, span, more⟩
    · dsimp only at settled same passed other
      subst settled
      have isAtHand : (readUser (some place) scan).1.isPending = false := by
        rw [found]
        rfl
      have noAttribute_other : ∀ id span, (.error noAttribute : Except Failure Value) ≠
          .error (noMember id span) := by
        rintro id span ⟨⟩
      rcases outcome with failure | value
      · refine .settled ?_
        intro id span same
        exact other (congrArg ParseResult.settled same)
      · cases value with
        | account known =>
            dsimp only
            split
            · refine .settled ?_
              rintro id span ⟨⟩
            · simp only [Scan.begin]
              rw [same, passed, spanFrom_passed]
              exact .atHand isAtHand
        | _ =>
            exact .settled noAttribute_other
    · dsimp only at pending more
      subst pending
      have isMissing : (readUser (some place) scan).1.isPending = true := by
        rw [found]
        rfl
      simp only [Scan.begin]
      rw [more, List.append_assoc, List.length_append]
      exact .fetched isMissing

end Parser

/-! ## Lookups that are run -/

/-- The task of a trial begins the lookups of a scan before it gives way, at a reader. -/
def Trial.Begins (trial : Trial σ J) (begin : LookupJob F → J) (origin : Origin) (reader : Reader)
    (launches : List (Launch F)) : Prop :=
  ∃ given : Loop σ J,
    Dispatch.HasBegun trial.run begin origin reader launches [] trial.loop given ∧
      Loop.Leads (some trial.task) none given (trial.after 0).loop

namespace Trial.Begins

variable {trial : Trial σ J} {begin : LookupJob F → J} {origin : Origin} {reader : Reader}
  {launches : List (Launch F)}

/-- What is left when the lookups have begun is performed next. -/
theorem of_performs {given : Loop σ J}
    (begun : Dispatch.HasBegun trial.run begin origin reader launches [] trial.loop given)
    (coherent : given.Coherent (some trial.task))
    (performs : ∃ rest, Loop.perform trial.run trial.task trial.loop trial.body =
      Loop.perform trial.run trial.task given rest) :
    trial.Begins begin origin reader launches := by
  rcases performs with ⟨rest, performs⟩
  have ran := (coherent.perform trial.run rest).leads
  rw [← performs] at ran
  exact ⟨given, begun, ran⟩

/-- A dispatch begins the lookups of its line where the walk of the line has ended. -/
theorem of_dispatch (sound : trial.IsSound) {env : DispatchEnv F σ J} {registry : CommandRegistry F}
    {start last : Invocation F} {walked : Except Halt (Option F)} {after : σ}
    (runs : ∃ next, trial.body = (Dispatch.run env registry start).bind next)
    (walks : (Walk.ofLine env.patience registry).run env.toWalkEnv start trial.loop.state =
      (walked, last, after)) :
    trial.Begins env.begin last.origin last.reader last.scan.lookups := by
  have approaches : ∃ next, trial.body =
      (Dispatch.approach env.toWalkEnv env.begin registry start).bind next := by
    rcases runs with ⟨next, body⟩
    exact ⟨_, body.trans (Activity.bind_assoc _ _ _)⟩
  rcases approaches with ⟨next, body⟩
  rcases Dispatch.beginLookups_goesThrough trial.run trial.task env.begin last.origin last.reader
      last.scan.lookups [] { trial.loop with state := after } with
    ⟨given, history, goes, begun, leads⟩
  have coherent := (leads (Loop.Coherent.withState sound after).coherent).coherent
  have walks := @Dispatch.perform_approach _ _ _ trial.loop trial.task trial.run env.toWalkEnv
    env.begin registry _ _ _ _ walks next
  rw [← body] at walks
  exact of_performs ⟨begun.length, begun.kept, begun.ready⟩ coherent
    ⟨_, walks.trans (goes.performs _)⟩

/-- A lookup that has ended was cancelled, or its work came to that end. -/
theorem ends_of_exit (begins : trial.Begins begin origin reader launches) (sound : trial.IsSound)
    {lookup : Nat} {launch : Launch F} (found : launches[lookup]? = some launch) {steps : Nat}
    {exit : Exit Value}
    (ended : (trial.after steps).loop.exit? (Dispatch.lookupTask trial lookup) = some exit) :
    exit = .error .cancelled ∨ ∃ history,
      (trial.run (begin (.prepare origin reader (List.range' trial.loop.tasks.length lookup)
        launch.lookup))).Ends history exit ∧
      ∀ on reply, .waited on reply ∈ history → on.Answered (trial.after steps).loop reply := by
  rcases begins with ⟨given, begun, leads⟩
  have ready := begun.ready lookup launch found
  rcases leads.ready (Dispatch.task_ne_lookupTask sound lookup) ready with ⟨answer, answers, stands⟩
  have isAnswer : answer = .error .cancelled ∨ answer = .ok .null := by
    rcases answers with rfl | cancelled
    · split
      · exact .inl rfl
      · exact .inr rfl
    · exact .inl cancelled
  have isLater := Trial.loop_after trial 0 steps
  rw [Nat.zero_add] at isLater
  rw [isLater] at ended ⊢
  exact leads.coherent.ends_of_exit stands isAnswer ended

end Trial.Begins

/-! ## Spans of members that are not found -/

/-- What is read after a scan stays on its line and takes no lookup off. -/
structure Scan.GoesOn (scan : Scan F) (reader : Reader) (launches : List (Launch F)) : Prop where
  text : reader.text = scan.reader.text
  lookups : ∀ (number : Nat) (launch : Launch F), scan.lookups[number]? = some launch →
    ∃ dropped, launches[number]? = some ⟨launch.lookup, dropped⟩

/-- A result of reading ends in a failure: at once, or when its lookup has ended. -/
def ParseResult.EndsIn (result : ParseResult Nat) (trial : Trial σ J) (steps : Nat)
    (failure : Failure) : Prop :=
  match result with
  | .settled outcome => outcome = .error failure
  | .endless => False
  | .pending lookup =>
    (trial.after steps).loop.exit? (Dispatch.lookupTask trial lookup) =
      some (.error (.failed failure))

namespace Parser

open LookupJob

/-- Where no member is found for a reference, the span of the error is that of the reference exactly
if the user was at hand and the reference is not empty, or if the user was fetched and the lookups
began where the reference ends.

This is so whatever was read before the lookups began, at a `later` reader, whatever else there is
in the loop, and whenever the lookups end. -/
theorem member_span_exact_iff [Journaled σ] {env : ReadingEnv F σ} {place : Origin}
    (placed : env.origin = some place) {scan after : Scan F} {state left : σ}
    {result : ParseResult Nat}
    (reads : Parser.member.read env scan state = (result, after, left))
    {later : Reader} {launches : List (Launch F)} (goesOn : after.GoesOn later launches)
    {trial : Trial σ J} (sound : trial.IsSound) {begin : LookupJob F → J}
    (begins : trial.Begins begin place later launches) {custom : F → Course σ J Value}
    (works : ∀ job, trial.run (begin job) = (run custom job).attempt)
    {steps : Nat} {id : Int} {span : Span} (ends : result.EndsIn trial steps (noMember id span)) :
    span = scan.reader.referenceSpan ↔
      if (readUser (some place) scan).1.isPending then
        max (scan.reader.index + 1) later.index =
          scan.reader.index + scan.reader.reference.length
      else scan.reader.reference ≠ [] := by
  rw [Parser.read, placed] at reads
  have mentions := readMember_mentions place scan
  have line := readMember_text (some place) scan
  generalize readMember (some place) scan = read at reads mentions line
  rcases read with ⟨answer, behind⟩
  cases reads
  -- What a lookup comes to is what its work does, unless it was cancelled.
  have work : ∀ {number : Nat} {launch : Launch F} {error : ParseError},
      after.lookups[number]? = some launch →
      (trial.after steps).loop.exit? (Dispatch.lookupTask trial number) =
        some (.error (.failed (.parse error))) →
      ∃ history, (run custom (.prepare place later
          (List.range' trial.loop.tasks.length number) launch.lookup)).attempt.Ends history
          (.error (.failed (.parse error))) ∧
        ∀ on reply, .waited on reply ∈ history → on.Answered (trial.after steps).loop reply := by
    intro number launch error found ended
    rcases goesOn.lookups number launch found with ⟨dropped, isLaunched⟩
    rcases begins.ends_of_exit sound isLaunched ended with absurdity | ⟨history, comes, answered⟩
    · cases absurdity
    · rw [works] at comes
      exact ⟨history, comes, answered⟩
  have kept := goesOn.text.trans line
  dsimp only at mentions
  generalize lookups : after.lookups = launched at mentions work
  cases mentions with
  | settled other =>
      exact absurd ends (other id span)
  | @atHand known found =>
      rcases work List.getElem?_concat_length ends with ⟨history, fails, answered⟩
      have isSpan := span_eq_of_noMember (fetchMember_fails fails answered)
      rw [found, if_neg Bool.false_ne_true, isSpan, Reader.span_eq_referenceSpan_iff, ne_eq,
        ← List.length_eq_zero_iff]
      omega
  | @fetched user mentioned missing =>
      have isLast : (scan.lookups ++ [⟨.user user mentioned, false⟩,
          ⟨.memberAfter scan.lookups.length scan.reader.index, false⟩])[scan.lookups.length + 1]? =
          some ⟨.memberAfter scan.lookups.length scan.reader.index, false⟩ := by
        simp
      have isBase : (scan.lookups ++ [⟨.user user mentioned, false⟩,
          ⟨.memberAfter scan.lookups.length scan.reader.index, false⟩])[scan.lookups.length]? =
          some (⟨.user user mentioned, false⟩ : Launch F) := by
        simp
      rcases work isLast ends with ⟨history, fails, answered⟩
      have base : (List.range' trial.loop.tasks.length (scan.lookups.length + 1)).getD
          scan.lookups.length 0 = Dispatch.lookupTask trial scan.lookups.length := by
        rw [List.getD_eq_getElem?_getD, List.getElem?_range' (Nat.lt_succ_self _), Nat.one_mul]
        rfl
      rcases memberAfter_fails fails answered with userFailed | ⟨known, reported⟩
      · rw [base] at userFailed
        rcases work isBase userFailed with ⟨before, fails, answered⟩
        exact absurd (user_fails fails answered) noMember_ne_noUser
      · have isSpan := span_eq_of_noMember reported
        rw [missing, if_pos rfl, isSpan, Reader.spanFrom, Reader.span, kept]
        exact Reader.span_eq_referenceSpan_iff scan.reader later.index

end Parser

/-! ## A user who is no member -/

namespace Stranger

/-- Ann can be fetched, and is no member of the guild. -/
def origin : Origin :=
  ⟨.null, some ⟨[], [⟨⟨123, "ann", none, none⟩, none, .found⟩]⟩, some ⟨100, [], []⟩⟩

def start : Invocation String :=
  { Invocation.ofText "?kick 123 now" with message := none, origin := origin }

def body : Activity Asked (LookupJob String) (Exit Value) :=
  (Dispatch.run Kick.env Kick.registry start).bind fun _ => .done (.ok .null)

def trial : Trial Asked (LookupJob String) where
  run job := (LookupJob.run (fun _ => pure .null) job).attempt
  loop := { Loop.start ⟨[]⟩ with tasks := [.ready (.ok .null) fun _ => body] }
  task := 0
  body := body

def reading : ReadingEnv String Asked :=
  ⟨some origin, fun _ scan state => (.bare .null, scan.reader, state), 0⟩

/-- The line where the member is to be read. -/
def scan : Scan String := ⟨⟨"?kick 123 now".toList, 6, []⟩, [], []⟩

/-- What reading the member gives, and the scan behind it. -/
def read : ParseResult Nat × Scan String × Asked := Parser.member.read reading scan ⟨[]⟩

/-- What an exit reports of a line. -/
def reported? : Option (Exit Value) → Option ParseError
  | some (.error (.failed (.parse error))) => some error
  | _ => none

theorem eq_of_reported {exit : Option (Exit Value)} {error : ParseError}
    (reported : reported? exit = some error) : exit = some (.error (.failed (.parse error))) := by
  unfold reported? at reported
  split at reported
  · cases reported
    rfl
  · cases reported

theorem walks : ∃ last, (Walk.ofLine Kick.env.patience Kick.registry).run Kick.env.toWalkEnv start ⟨[]⟩ =
    (.ok (some "kick"), last, ⟨[]⟩) ∧ last.origin = origin ∧
      last.reader = ⟨"?kick 123 now".toList, 13, []⟩ ∧
      last.scan.lookups = read.2.1.lookups := by
  exact ⟨_, rfl, rfl, rfl, rfl⟩

/-- The reference is `123`, and the error marks all the rest of the line. -/
theorem rest_of_line_is_marked :
    ∃ span, read.1.EndsIn trial 6 (LookupJob.noMember 123 span) ∧
      span.text = "123 now" ∧ scan.reader.referenceSpan.text = "123" ∧
      span ≠ scan.reader.referenceSpan := by
  have sound : trial.IsSound := ((Loop.Coherent.start (⟨[]⟩ : Asked)).begin body).coherent
  rcases walks with ⟨last, walked, isOrigin, atEnd, lookups⟩
  have begins := Trial.Begins.of_dispatch sound ⟨_, rfl⟩ walked
  rw [isOrigin, atEnd, lookups] at begins
  have goesOn : read.2.1.GoesOn ⟨"?kick 123 now".toList, 13, []⟩ read.2.1.lookups :=
    ⟨rfl, fun number launch found => ⟨launch.dropped, found⟩⟩
  have ends : read.1.EndsIn trial 6 (LookupJob.noMember 123 ⟨"?kick 123 now".toList, 6, 12⟩) :=
    eq_of_reported (by decide +kernel)
  have reads : Parser.member.read reading scan ⟨[]⟩ = (read.1, read.2.1, read.2.2) := rfl
  have exact_iff := Parser.member_span_exact_iff rfl reads goesOn sound begins (fun _ => rfl) ends
  refine ⟨_, ends, by decide +kernel, by decide +kernel, ?_⟩
  intro same
  have isEnd := exact_iff.1 same
  revert isEnd
  decide +kernel

end Stranger

end Steward
