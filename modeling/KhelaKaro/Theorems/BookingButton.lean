import KhelaKaro.BookingScreen
import KhelaKaro.Theorems.DateRoundTrip

/-! # The booking button

A press disables the button, and the response to its request enables it again. A press that sends no request leaves it
disabled for good. -/

namespace KhelaKaro

/-- The press picks an hour that is offered, and finds a signed-in user. -/
def ScreenEvent.Accepted : ScreenEvent → Prop
  | .press zone currentUser date => (11 ≤ zone.hour date.time ∧ zone.hour date.time < 19) ∧ currentUser ≠ none
  | .response _ _ => True

/-! ### The phases -/

/-- What the button stands for: one booking at a time. -/
inductive Phase where
  | ready
  | waiting
  /-- disabled, with no booking under way -/
  | stuck

inductive Phase.Next : Phase → ScreenEvent → Phase → Prop where
  | sent {zone : Zone} {currentUser : Option FirebaseUser} {date : Date}
      (accepted : (ScreenEvent.press zone currentUser date).Accepted) :
      Next .ready (.press zone currentUser date) .waiting
  | unsent {zone : Zone} {currentUser : Option FirebaseUser} {date : Date}
      (refused : ¬(ScreenEvent.press zone currentUser date).Accepted) :
      Next .ready (.press zone currentUser date) .stuck
  | answered {i : Nat} {data : Option Json} : Next .waiting (.response i data) .ready

theorem Phase.Next.accepted_iff {p p' : Phase} {e : ScreenEvent} (h : Next p e p') : e.Accepted ↔ p' ≠ .stuck := by
  cases h with
  | sent accepted => simp [accepted]
  | unsent refused => simp [refused]
  | answered => simp [ScreenEvent.Accepted]

theorem Phase.Next.ne_stuck {p p' : Phase} {e : ScreenEvent} (h : Next p e p') : p ≠ .stuck := by
  cases h <;> simp

namespace BookingScreen

/-- The screen is in the phase. -/
def InPhase (v : BookingScreen) : Phase → Prop
  | .ready => v.isEnabled = true ∧ v.outstanding = []
  | .waiting => v.isEnabled = false ∧ ∃ body, v.outstanding = [body]
  | .stuck => v.isEnabled = false ∧ v.outstanding = []

/-- The button is enabled exactly while no request is outstanding, of which there is never more than one; and while it
    is disabled, a response can enable it. -/
structure Unstuck (v : BookingScreen) (f : Foundation) (screen : Screen) : Prop where
  enabled_iff : v.isEnabled = true ↔ v.outstanding = []
  atMostOne : v.outstanding.length ≤ 1
  response : v.isEnabled = false → ∃ i data v', v.step f screen (.response i data) = some v' ∧ v'.isEnabled = true

section Steps
variable {v v' : BookingScreen} {f : Foundation} {screen : Screen} {zone : Zone} {currentUser : Option FirebaseUser}
  {date : Date} {e : ScreenEvent} {p : Phase}

theorem showErrorMsg_isEnabled (errorMsg : String) (success : Bool) :
    (v.showErrorMsg errorMsg success).isEnabled = v.isEnabled := rfl

theorem showErrorMsg_outstanding (errorMsg : String) (success : Bool) :
    (v.showErrorMsg errorMsg success).outstanding = v.outstanding := rfl

theorem completion_isEnabled (result : String) : (v.completion f result).isEnabled = true := rfl

theorem completion_outstanding (result : String) :
    (v.completion f result).outstanding = v.outstanding := by
  unfold completion
  split <;> rfl

/-! ### A press -/

theorem bookNowPressed_user (user : FirebaseUser) (h : 11 ≤ zone.hour date.time ∧ zone.hour date.time < 19) :
    v.bookNowPressed screen zone (some user) date = user.email.map fun userEmail =>
      { v with isEnabled := false }.request (bookCourt screen.facilityId (dateInput zone date) userEmail) := by
  simp only [bookNowPressed, timeHrInt_eq, Option.bind_some]
  exact if_neg (by omega)

theorem bookNowPressed_nobody (h : 11 ≤ zone.hour date.time ∧ zone.hour date.time < 19) :
    v.bookNowPressed screen zone none date = some { v with isEnabled := false } := by
  simp only [bookNowPressed, timeHrInt_eq, Option.bind_some]
  exact if_neg (by omega)

theorem bookNowPressed_shut (h : ¬(11 ≤ zone.hour date.time ∧ zone.hour date.time < 19)) :
    v.bookNowPressed screen zone currentUser date =
      some ({ v with isEnabled := false }.showErrorMsg "Please choose timings between 11am to 7pm" false) := by
  simp only [bookNowPressed, timeHrInt_eq, Option.bind_some]
  exact if_pos (by omega)

theorem bookNowPressed_accepted (h : (ScreenEvent.press zone currentUser date).Accepted)
    (hs : v.bookNowPressed screen zone currentUser date = some v') :
    v'.isEnabled = false ∧ ∃ body, v'.outstanding = v.outstanding ++ [body] := by
  obtain ⟨hopen, hne⟩ := h
  obtain ⟨user, rfl⟩ := Option.ne_none_iff_exists'.mp hne
  rw [bookNowPressed_user user hopen] at hs
  obtain ⟨userEmail, -, rfl⟩ := Option.map_eq_some_iff.mp hs
  exact ⟨rfl, _, rfl⟩

theorem bookNowPressed_refused (h : ¬(ScreenEvent.press zone currentUser date).Accepted)
    (hs : v.bookNowPressed screen zone currentUser date = some v') :
    v'.isEnabled = false ∧ v'.outstanding = v.outstanding := by
  by_cases hopen : 11 ≤ zone.hour date.time ∧ zone.hour date.time < 19
  · have hnone : currentUser = none := by
      by_contra hne
      exact h ⟨hopen, hne⟩
    rw [hnone, bookNowPressed_nobody hopen] at hs
    cases hs
    exact ⟨rfl, rfl⟩
  · rw [bookNowPressed_shut hopen] at hs
    cases hs
    exact ⟨showErrorMsg_isEnabled _ _, showErrorMsg_outstanding _ _⟩

/-! ### A step -/

theorem step_press : v.step f screen (.press zone currentUser date) = some v' ↔
    v.isEnabled = true ∧ v.bookNowPressed screen zone currentUser date = some v' :=
  Option.ite_none_right_eq_some

theorem step_response {i : Nat} {data : Option Json} (hs : v.step f screen (.response i data) = some v') :
    i < v.outstanding.length ∧ v'.isEnabled = true ∧ v'.outstanding = v.outstanding.eraseIdx i := by
  obtain ⟨hi, hs⟩ := Option.ite_none_right_eq_some.mp hs
  obtain ⟨result, -, rfl⟩ := Option.map_eq_some_iff.mp hs
  exact ⟨hi, completion_isEnabled _, completion_outstanding _⟩

theorem InPhase.eq_ready (h : v.InPhase p) (henabled : v.isEnabled = true) : p = .ready := by
  cases p with
  | ready => rfl
  | waiting | stuck =>
    rw [h.1] at henabled
    cases henabled

theorem InPhase.eq_waiting {i : Nat} (h : v.InPhase p) (hi : i < v.outstanding.length) : p = .waiting := by
  cases p with
  | waiting => rfl
  | ready | stuck =>
    rw [h.2] at hi
    cases hi

/-- Each event moves the button from phase to phase, and none moves it out of the last one. -/
theorem step_phase (h : v.InPhase p) (hs : v.step f screen e = some v') : ∃ p', p.Next e p' ∧ v'.InPhase p' := by
  cases e with
  | press zone currentUser date =>
    obtain ⟨henabled, hs⟩ := step_press.mp hs
    obtain rfl := h.eq_ready henabled
    by_cases haccepted : (ScreenEvent.press zone currentUser date).Accepted
    · obtain ⟨hdisabled, body, hbody⟩ := bookNowPressed_accepted haccepted hs
      exact ⟨.waiting, .sent haccepted, hdisabled, body, by rw [hbody, h.2, List.nil_append]⟩
    · obtain ⟨hdisabled, hsame⟩ := bookNowPressed_refused haccepted hs
      exact ⟨.stuck, .unsent haccepted, hdisabled, by rw [hsame, h.2]⟩
  | response i data =>
    obtain ⟨hi, henabled, herase⟩ := step_response hs
    obtain rfl := h.eq_waiting hi
    obtain ⟨-, body, hbody⟩ := h
    rw [hbody, List.length_singleton, Nat.lt_one_iff] at hi
    exact ⟨.ready, .answered, henabled, by rw [herase, hbody, hi, List.eraseIdx_cons_zero]⟩

theorem unstuck_iff (h : v.InPhase p) : v.Unstuck f screen ↔ p ≠ .stuck := by
  cases p with
  | ready =>
    obtain ⟨henabled, hnil⟩ := h
    refine iff_of_true ⟨iff_of_true henabled hnil, by rw [hnil]; exact Nat.zero_le 1, fun hdisabled => ?_⟩ (by simp)
    rw [henabled] at hdisabled
    cases hdisabled
  | waiting =>
    obtain ⟨hdisabled, body, hbody⟩ := h
    refine iff_of_true ⟨by simp [hdisabled, hbody], by rw [hbody]; exact le_refl 1, fun _ => ?_⟩ (by simp)
    exact ⟨0, none, _, if_pos (by simp [hbody]), rfl⟩
  | stuck =>
    obtain ⟨hdisabled, hnil⟩ := h
    refine iff_of_false (fun hunstuck => ?_) (by simp)
    rw [hunstuck.enabled_iff.mpr hnil] at hdisabled
    cases hdisabled

/-! ### A run -/

theorem runs_snoc {es : List ScreenEvent} :
    runs f screen (es ++ [e]) = (runs f screen es).bind fun v => v.step f screen e := by
  simp only [runs, List.foldlM_append, List.foldlM_cons, List.foldlM_nil, bind_pure, Option.bind_eq_bind]

theorem runs_phase {es : List ScreenEvent} (h : runs f screen es = some v) :
    ∃ p, v.InPhase p ∧ ((∀ e ∈ es, e.Accepted) ↔ p ≠ .stuck) := by
  induction es using List.reverseRecOn generalizing v with
  | nil =>
    cases h
    exact ⟨.ready, ⟨rfl, rfl⟩, by simp⟩
  | append_singleton es e ih =>
    rw [runs_snoc] at h
    obtain ⟨v₀, hv₀, hs⟩ := Option.bind_eq_some_iff.mp h
    obtain ⟨p, hp, haccepted⟩ := ih hv₀
    obtain ⟨p', hnext, hp'⟩ := step_phase hp hs
    refine ⟨p', hp', ?_⟩
    -- The phase before was not the last, so all events before were accepted.
    rw [List.forall_mem_append, List.forall_mem_singleton, haccepted, hnext.accepted_iff]
    exact and_iff_right hnext.ne_stuck

end Steps

/-- The button of a sport screen is not stuck as long as every press was accepted, and stuck as soon as one was not. -/
theorem runs_unstuck_iff (f : Foundation) (screen : Screen) {es : List ScreenEvent} {v : BookingScreen}
    (h : runs f screen es = some v) : v.Unstuck f screen ↔ ∀ e ∈ es, e.Accepted := by
  obtain ⟨p, hp, haccepted⟩ := runs_phase h
  rw [haccepted]
  exact unstuck_iff hp

/-- Whole numbers, and texts in which every scalar is a character of its own -/
def plainFoundation : Foundation where
  stringValue := numberToString
  contains s t := s.toList.tails.any t.toList.isPrefixOf

def booking : List ScreenEvent :=
  [.press utc (some ⟨some "home@club.test"⟩) midsummer,
    .response 0 (some (.obj [("success", .bool true), ("msg", .str "Booked court 1 successfully!")]))]

def booked : BookingScreen := ⟨true, [], [⟨"Message", "Booked court 1 successfully!"⟩]⟩

theorem runs_booking : runs plainFoundation .badminton booking = some booked := by
  have hpress : start.step plainFoundation .badminton (.press utc (some ⟨some "home@club.test"⟩) midsummer) =
      some ({ start with isEnabled := false }.request (bookCourt "1" (dateInput utc midsummer) "home@club.test")) :=
    step_press.mpr ⟨rfl, bookNowPressed_user _ (by decide)⟩
  have hcontains : plainFoundation.contains "Booked court 1 successfully!" "successfully!" = true := by
    decide +kernel
  rw [runs, booking, List.foldlM_cons, hpress]
  simp [step, bookCourtResult, Json.ofData, Json.stringValue, Json.prop, completion, showErrorMsg, request, start,
    booked, hcontains, List.lookup_cons]

theorem booked_unstuck : booked.Unstuck plainFoundation .badminton := by
  refine (runs_unstuck_iff plainFoundation .badminton runs_booking).mpr ?_
  rintro e (_ | ⟨_, _ | ⟨_, ⟨⟩⟩⟩)
  · exact ⟨by decide, Option.some_ne_none _⟩
  · trivial

/-- 30 December 2024, 10:00 UTC -/
def december30Morning : Date := ⟨1735552800000, by decide⟩

theorem not_unstuck_december30Morning : ∃ v,
    runs plainFoundation .badminton [.press utc (some ⟨some "home@club.test"⟩) december30Morning] = some v ∧
      v.isEnabled = false ∧ v.outstanding = [] ∧ ¬v.Unstuck plainFoundation .badminton := by
  have hrun : runs plainFoundation .badminton [.press utc (some ⟨some "home@club.test"⟩) december30Morning] =
      start.bookNowPressed .badminton utc (some ⟨some "home@club.test"⟩) december30Morning := bind_pure _
  rw [hrun, bookNowPressed_shut (by decide)]
  refine ⟨_, rfl, rfl, rfl, fun h => ?_⟩
  cases h.enabled_iff.mpr rfl

end BookingScreen
end KhelaKaro
