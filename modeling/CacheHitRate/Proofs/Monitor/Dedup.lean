import CacheHitRate.Proofs.Monitor.AlertSpacing

/-!
Alerts of one group are deduplicated by the time of its last mark. An alert that goes ahead
marks its group with the time before it builds the notice, so a notice that fails to build still
marks the group; an alert within the dedup window of the mark is suppressed and only counted. A
group that was never marked reads as marked at time zero: before the window has passed since the
clock's zero, the first alert of a new group is suppressed too.

`AlertCalls` follows the alerts offered for one group, at times that never go back, with the
times of the calls that marked it. Along it the group's mark is the last of those times, so a
call is suppressed exactly when one of them lies within the window, or when there is none and
the call itself is within the window of zero.
-/

namespace CacheHitRate

namespace Monitor

/-- Whether an alert marked its group: it gave a notice, or it failed to build one. -/
def marksGroup : Except ArithError (Option Notice) → Bool
  | .ok none => false
  | _ => true

theorem find?_markAlerted (m : Monitor) (key : GroupKey) (now : Int) :
    (m.markAlerted key now).groups.find? key =
      (m.groups.find? key).map fun g => { g with lastAlertAt := some now } := by
  simp only [markAlerted]
  rw [Groups.find?_modify _ key key (fun g => { g with lastAlertAt := some now }) (fun _ => rfl),
    if_pos rfl]

/-- One alert on a group the monitor holds. It is suppressed exactly within the dedup window of
the group's mark, read as zero when there is none, and then only counted; otherwise the group is
marked and the notice built, which gives the notice and counts it under the reason, or stops on
the error with the mark kept. -/
theorem prepareAlert_cases {m : Monitor} {key : GroupKey} {g : Group}
    (hg : m.groups.find? key = some g) (row : Row) (reason : Reason) (now : Int) :
    ((runOp (prepareAlert key row reason now) m).1 = .ok none ↔
      now - g.lastAlertAt.getD 0 < alertDedupMs) ∧
    ((runOp (prepareAlert key row reason now) m).1 = .ok none →
      (runOp (prepareAlert key row reason now) m).2 =
        m.withMetrics fun x => { x with alertsSuppressed := x.alertsSuppressed + 1 }) ∧
    (∀ n, (runOp (prepareAlert key row reason now) m).1 = .ok (some n) →
      (runOp (prepareAlert key row reason now) m).2 = (m.markAlerted key now).withMetrics fun x =>
        { x with alerts := x.alerts.bump (Text.ofString reason.text) }) ∧
    (∀ err, (runOp (prepareAlert key row reason now) m).1 = .error err →
      (runOp (prepareAlert key row reason now) m).2 = m.markAlerted key now) := by
  rw [runOp_prepareAlert, hg]
  dsimp only
  by_cases hdup : now - g.lastAlertAt.getD 0 < alertDedupMs
  · rw [if_pos hdup]
    exact ⟨iff_of_true rfl hdup, fun _ => rfl, by simp, by simp⟩
  · rw [if_neg hdup]
    cases Notice.alert key g.providerName row (Text.ofString reason.text) with
    | error err => exact ⟨iff_of_false (by simp) hdup, by simp, by simp, fun _ _ => rfl⟩
    | ok n => exact ⟨iff_of_false (by simp) hdup, by simp, fun _ _ => rfl, by simp⟩

/-- Alerts offered for the group of `key`, one after another from `m₀` at times that never go
back: the monitor they reach, the time of the last one, and the times of those that marked the
group, in order. -/
inductive AlertCalls (key : GroupKey) (m₀ : Monitor) : Monitor → Int → List Int → Prop
  | start (t : Int) : AlertCalls key m₀ m₀ t []
  | call {m : Monitor} {t : Int} {marks : List Int} (row : Row) (reason : Reason) (now : Int) :
      AlertCalls key m₀ m t marks → t ≤ now →
      AlertCalls key m₀ (runOp (prepareAlert key row reason now) m).2 now
        (if marksGroup (runOp (prepareAlert key row reason now) m).1 then marks ++ [now] else marks)

/-- What the alerts keep of a group: the monitor holds it, its mark is the last time that marked
it, and those times are in order and not after the last call. -/
structure MarkedAt (m : Monitor) (key : GroupKey) (t : Int) (marks : List Int) : Prop where
  group : ∃ g, m.groups.find? key = some g ∧ g.lastAlertAt = marks.getLast?
  sorted : marks.Pairwise (· ≤ ·)
  le : ∀ x ∈ marks, x ≤ t

variable {m : Monitor} {key : GroupKey} {t : Int} {marks : List Int}

theorem MarkedAt.call (h : m.MarkedAt key t marks) (row : Row) (reason : Reason) {now : Int}
    (hle : t ≤ now) :
    (runOp (prepareAlert key row reason now) m).2.MarkedAt key now
      (if marksGroup (runOp (prepareAlert key row reason now) m).1 then marks ++ [now]
        else marks) := by
  obtain ⟨g, hg, hmark⟩ := h.group
  obtain ⟨hiff, hsup, hnotice, herror⟩ := prepareAlert_cases hg row reason now
  have hmarked : MarkedAt (m.markAlerted key now) key now (marks ++ [now]) := by
    refine ⟨⟨_, by rw [find?_markAlerted, hg]; rfl, by simp⟩, ?_, ?_⟩
    · exact List.pairwise_append.2 ⟨h.sorted, List.pairwise_singleton _ _,
        fun x hx y hy => (List.mem_singleton.1 hy) ▸ Int.le_trans (h.le x hx) hle⟩
    · intro x hx
      rcases List.mem_append.1 hx with hx | hx
      · exact Int.le_trans (h.le x hx) hle
      · exact Int.le_of_eq (List.mem_singleton.1 hx)
  rcases hr : (runOp (prepareAlert key row reason now) m).1 with err | _ | n
  · rw [herror err hr]
    exact hmarked
  · rw [hsup hr]
    exact ⟨⟨g, hg, hmark⟩, h.sorted, fun x hx => Int.le_trans (h.le x hx) hle⟩
  · rw [hnotice n hr]
    exact ⟨hmarked.group, hmarked.sorted, hmarked.le⟩

/-- Along alerts offered from a monitor whose group of `key` has never alerted, the group's mark
is the last time that marked it. -/
theorem AlertCalls.markedAt {m₀ : Monitor} {g₀ : Group} (hg₀ : m₀.groups.find? key = some g₀)
    (hfresh : g₀.lastAlertAt = none) (h : AlertCalls key m₀ m t marks) : m.MarkedAt key t marks := by
  induction h with
  | start t => exact ⟨⟨g₀, hg₀, hfresh⟩, List.Pairwise.nil, fun _ hx => absurd hx List.not_mem_nil⟩
  | call row reason now _ hle ih => exact ih.call row reason hle

theorem getLast?_within_iff {xs : List Int} (hs : xs.Pairwise (· ≤ ·)) (now d : Int) :
    now - xs.getLast?.getD 0 < d ↔ (∃ x ∈ xs, now - x < d) ∨ (xs = [] ∧ now < d) := by
  rcases List.eq_nil_or_concat xs with rfl | ⟨l, y, rfl⟩
  · simp
  · rw [List.concat_eq_append] at hs
    have hmax : ∀ x ∈ l, x ≤ y := fun x hx =>
      (List.pairwise_append.1 hs).2.2 x hx y (List.mem_singleton_self y)
    simp only [List.concat_eq_append, List.getLast?_append, List.getLast?_singleton,
      Option.some_or, Option.getD_some, List.append_eq_nil_iff, List.cons_ne_nil, and_false,
      false_and, or_false]
    constructor
    · intro hy
      exact ⟨y, List.mem_append_right l (List.mem_singleton_self y), hy⟩
    · rintro ⟨x, hx, hxd⟩
      rcases List.mem_append.1 hx with hx | hx
      · have := hmax x hx
        omega
      · rw [List.mem_singleton.1 hx] at hxd
        exact hxd

end Monitor

open Monitor
/-- Alerts of one group are deduplicated by the time of its last mark. Take a monitor whose group
of `key` has never alerted, and alerts offered for that group one after another at times that
never go back. The next one, at `now`, gives nothing exactly when a call that marked the group
(by giving a notice, or by failing to build one) lies within the dedup window of `now`, or when
none did and `now` itself lies within the window of zero. Giving nothing changes nothing but the
count of suppressed alerts; a notice marks the group with `now` and counts an alert of its
reason; a failure to build the notice leaves the mark and nothing else. -/
theorem alerts_deduplicated_by_last_mark {key : GroupKey} {m₀ m : Monitor} {g₀ : Group} {t : Int}
    {marks : List Int} (hg₀ : m₀.groups.find? key = some g₀) (hfresh : g₀.lastAlertAt = none)
    (h : AlertCalls key m₀ m t marks) (row : Row) (reason : Reason) (now : Int) :
    ((runOp (prepareAlert key row reason now) m).1 = .ok none ↔
      (∃ x ∈ marks, now - x < alertDedupMs) ∨ (marks = [] ∧ now < alertDedupMs)) ∧
    ((runOp (prepareAlert key row reason now) m).1 = .ok none →
      (runOp (prepareAlert key row reason now) m).2 =
        m.withMetrics fun x => { x with alertsSuppressed := x.alertsSuppressed + 1 }) ∧
    (∀ n, (runOp (prepareAlert key row reason now) m).1 = .ok (some n) →
      (runOp (prepareAlert key row reason now) m).2 = (m.markAlerted key now).withMetrics fun x =>
        { x with alerts := x.alerts.bump (Text.ofString reason.text) }) ∧
    (∀ err, (runOp (prepareAlert key row reason now) m).1 = .error err →
      (runOp (prepareAlert key row reason now) m).2 = m.markAlerted key now) := by
  obtain ⟨⟨g, hg, hmark⟩, hsorted, -⟩ := h.markedAt hg₀ hfresh
  obtain ⟨hiff, hframe⟩ := prepareAlert_cases hg row reason now
  rw [hmark] at hiff
  exact ⟨hiff.trans (getLast?_within_iff hsorted now alertDedupMs), hframe⟩

/-- A group of that key that has never alerted. -/
def quietGroup : Group := { key := quietKey, providerName := Text.ofString "p", lastSeenMinute := 1 }

/-- A monitor on over a store that holds `true`, tracking that group alone. -/
def quietMonitor : Monitor := { store := .memory (.bool true), enabled := .bool true, groups := [quietGroup] }

/-- A recent window of 3000 denominator tokens and 10 requests that created 1000 cache tokens
and read none. -/
def zeroReadRow : Row :=
  ⟨{}, ⟨.int 3000, .int 0, .int 1000, .int 10⟩, ⟨.int 3000, .int 0, .int 1000, .int 10⟩, 15, false⟩

/-- The group after two alerts: one at fifteen minutes, which goes ahead and marks it, and one
at 1700000, within the window of that mark, which is suppressed. -/
def alertedTwice : Monitor :=
  (runOp (prepareAlert quietKey zeroReadRow .createWithoutRead 1700000)
    (runOp (prepareAlert quietKey zeroReadRow .createWithoutRead 900000) quietMonitor).2).2

/-- A third alert, a quarter of an hour after the mark but only 100000 after the last alert,
goes ahead: the window runs from the last mark, not from the last alert offered. -/
theorem alert_after_window_of_mark_goes_ahead :
    Monitor.AlertCalls quietKey quietMonitor alertedTwice 1700000 [900000] ∧
    (((runOp (prepareAlert quietKey zeroReadRow .createWithoutRead 1800000) alertedTwice).1 =
        .ok none ↔
      (∃ x ∈ [(900000 : Int)], 1800000 - x < alertDedupMs) ∨
        ([(900000 : Int)] = [] ∧ (1800000 : Int) < alertDedupMs)) ∧
    ((runOp (prepareAlert quietKey zeroReadRow .createWithoutRead 1800000) alertedTwice).1 =
        .ok none →
      (runOp (prepareAlert quietKey zeroReadRow .createWithoutRead 1800000) alertedTwice).2 =
        alertedTwice.withMetrics fun x => { x with alertsSuppressed := x.alertsSuppressed + 1 }) ∧
    (∀ n, (runOp (prepareAlert quietKey zeroReadRow .createWithoutRead 1800000) alertedTwice).1 =
        .ok (some n) →
      (runOp (prepareAlert quietKey zeroReadRow .createWithoutRead 1800000) alertedTwice).2 =
        (alertedTwice.markAlerted quietKey 1800000).withMetrics fun x =>
          { x with alerts := x.alerts.bump (Text.ofString Reason.createWithoutRead.text) }) ∧
    (∀ err, (runOp (prepareAlert quietKey zeroReadRow .createWithoutRead 1800000) alertedTwice).1 =
        .error err →
      (runOp (prepareAlert quietKey zeroReadRow .createWithoutRead 1800000) alertedTwice).2 =
        alertedTwice.markAlerted quietKey 1800000)) := by
  have hcalls : Monitor.AlertCalls quietKey quietMonitor alertedTwice 1700000 [900000] :=
    .call zeroReadRow .createWithoutRead 1700000
      (.call zeroReadRow .createWithoutRead 900000 (.start 0) (by decide)) (by decide)
  exact ⟨hcalls, alerts_deduplicated_by_last_mark rfl rfl hcalls zeroReadRow .createWithoutRead
    1800000⟩

/-- The first alert ever offered for a group that has never alerted, two minutes after the
clock's zero, gives nothing: the missing alert time reads as zero. -/
theorem first_alert_of_group_suppressed :
    Monitor.AlertCalls quietKey quietMonitor quietMonitor 0 [] ∧ quietGroup.lastAlertAt = none ∧
    (runOp (prepareAlert quietKey zeroReadRow .createWithoutRead 120000) quietMonitor).1 = .ok none :=
  ⟨.start 0, rfl, rfl⟩

end CacheHitRate
