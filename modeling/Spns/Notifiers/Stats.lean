import Spns.Lib.Binary64
import Spns.Lib.Fallible
import Spns.Lib.Run

/-!
# Statistics of the notifiers

Every notifier counts its notifications in a `NotifyStats`, and a timer
collects the counts every few seconds.  `collect` reports rates for the last
hour, ten minutes and minute out of a history of its own calls, which it trims
to one hour.  Times are seconds in double precision, and so is the arithmetic
of `collect`.

The sum of a window is divided by the elapsed time and also by the number of
calls in the window.  As long as the errors of the arithmetic stay below what
the final rounding can see, what is reported is a rate for windows of one call
only, and where that rounding hides the difference.
-/

namespace Spns.Notifiers

open Spns.Lib
open Spns.Lib.Binary64
open Spns.Lib.Rounding

/-- An entry of `notify_hist`. -/
structure Sample where
  time : ℚ
  notifies : Nat
  deriving DecidableEq

structure NotifyStats where
  notifies : Nat
  notifyRetries : Nat
  failures : Nat
  totalNotifies : Nat
  totalRetries : Nat
  totalFailures : Nat
  notifyHist : List Sample
  deriving DecidableEq

/-- The report of `collect`; `perDay` holds `notifies_per_day.<m>m` by `m`. -/
structure Report where
  notifies : Nat
  notifyRetries : Nat
  failures : Nat
  perDay : List (Nat × Int)

/-- The minutes of the windows. -/
def windows : List Nat :=
  [60, 10, 1]

/-- The local variables of the loop over the history. -/
structure Window where
  since : ℚ
  summation : Nat
  n : Nat
  deriving DecidableEq

/-- The loop over the history; `previous` is the time of the entry before. -/
def Window.scan (cutoff : ℚ) : (previous : Option ℚ) → Window → List Sample → Window
  | _, window, [] => window
  | previous, window, sample :: rest =>
      if cutoff ≤ sample.time then
        scan cutoff (some sample.time)
          { since := if window.n = 0 then previous.getD sample.time else window.since
            summation := window.summation + sample.notifies
            n := window.n + 1 } rest
      else
        scan cutoff (some sample.time) window rest

/-- The start of the window of so many minutes. -/
def windowCutoff (now : ℚ) (minutes : Nat) : ℚ :=
  nearest (now - minutes * 60)

def window (now : ℚ) (minutes : Nat) (hist : List Sample) : Window :=
  Window.scan (windowCutoff now minutes) none ⟨0, 0, 0⟩ hist

/-- The exceptions of the arithmetic. -/
inductive Raised where
  | zeroDivisionError
  | overflowError
  deriving DecidableEq

/-- `round(summation / n / (now - since) * 86400)`.  A quotient of two integers
must be finite, and so must a number that is rounded to an integer. -/
def notifiesPerDay (now : ℚ) (found : Window) : Except Raised Int :=
  match ofRat (found.summation / found.n) with
  | .infinite => throw .overflowError
  | .finite mean =>
      let elapsed := ofRat (now - found.since)
      if elapsed = .finite 0 then
        throw .zeroDivisionError
      else
        match times 86400 (divide mean elapsed) with
        | .infinite => throw .overflowError
        | .finite rate => pure (roundHalfEven rate)

/-- One turn of the loop over the windows. -/
def reportWindow (now : ℚ) (hist : List Sample) (perDay : List (Nat × Int)) (minutes : Nat) :
    Except Raised (List (Nat × Int)) :=
  let found := window now minutes hist
  if 0 < found.n then do
    let rate ← notifiesPerDay now found
    pure (perDay ++ [(minutes, rate)])
  else
    pure perDay

/-- Pop from the left while the time is before `cutoff`. -/
def trimHist (cutoff : ℚ) : List Sample → List Sample
  | [] => []
  | sample :: rest => if sample.time < cutoff then trimHist cutoff rest else sample :: rest

namespace NotifyStats

/-- A new object. -/
def initial : NotifyStats where
  notifies := 0
  notifyRetries := 0
  failures := 0
  totalNotifies := 0
  totalRetries := 0
  totalFailures := 0
  notifyHist := []

def collect (stats : NotifyStats) (now : ℚ) : Except Raised (Report × NotifyStats) := do
  let perDay ← windows.foldlM (reportWindow now stats.notifyHist) []
  return (⟨stats.notifies, stats.notifyRetries, stats.failures, perDay⟩,
    { notifies := 0
      notifyRetries := 0
      failures := 0
      totalNotifies := stats.totalNotifies + stats.notifies
      totalRetries := stats.totalRetries + stats.notifyRetries
      totalFailures := stats.totalFailures + stats.failures
      notifyHist := trimHist (nearest (now - 3600)) stats.notifyHist ++
        [⟨now, stats.notifies⟩] })

end NotifyStats

/-! ## What the loop finds -/

/-- The samples at `cutoff` and later. -/
def recent (cutoff : ℚ) (samples : List Sample) : List Sample :=
  samples.filter fun sample => cutoff ≤ sample.time

/-- The samples before `cutoff`. -/
def former (cutoff : ℚ) (samples : List Sample) : List Sample :=
  samples.filter fun sample => sample.time < cutoff

/-- The notifications of all samples. -/
def total (samples : List Sample) : Nat :=
  (samples.map Sample.notifies).sum

/-- The time of the sample before the first recent one, or of that one if there
is none before it. -/
def windowStart (cutoff : ℚ) (hist : List Sample) : ℚ :=
  match (former cutoff hist).getLast?, (recent cutoff hist).head? with
  | some before, _ => before.time
  | none, some first => first.time
  | none, none => 0

/-- Samples with strictly increasing times. -/
def Increasing (samples : List Sample) : Prop :=
  samples.Pairwise fun first second => first.time < second.time

theorem mem_recent_iff {cutoff : ℚ} {samples : List Sample} {sample : Sample} :
    sample ∈ recent cutoff samples ↔ sample ∈ samples ∧ cutoff ≤ sample.time := by
  simp [recent]

theorem mem_former_iff {cutoff : ℚ} {samples : List Sample} {sample : Sample} :
    sample ∈ former cutoff samples ↔ sample ∈ samples ∧ sample.time < cutoff := by
  simp [former]

/-- In order of time the recent samples come last. -/
theorem former_append_recent (cutoff : ℚ) {samples : List Sample} (increasing : Increasing samples) :
    former cutoff samples ++ recent cutoff samples = samples := by
  induction samples with
  | nil => rfl
  | cons sample rest ih =>
      obtain ⟨first, others⟩ := List.pairwise_cons.mp increasing
      by_cases isRecent : cutoff ≤ sample.time
      · have allRecent : ∀ other ∈ sample :: rest, cutoff ≤ other.time := by
          intro other member
          rcases List.mem_cons.mp member with rfl | later
          · exact isRecent
          · exact isRecent.trans (first other later).le
        have noFormer : former cutoff (sample :: rest) = [] :=
          List.filter_eq_nil_iff.mpr fun other member => by
            simpa using allRecent other member
        have recentAll : recent cutoff (sample :: rest) = sample :: rest :=
          List.filter_eq_self.mpr fun other member => by
            simpa using allRecent other member
        rw [noFormer, recentAll, List.nil_append]
      · have isFormer : sample.time < cutoff := not_le.mp isRecent
        have formerCons : former cutoff (sample :: rest) = sample :: former cutoff rest :=
          List.filter_cons_of_pos (by simpa using isFormer)
        have recentRest : recent cutoff (sample :: rest) = recent cutoff rest :=
          List.filter_cons_of_neg (by simpa using isFormer)
        rw [formerCons, recentRest, List.cons_append, ih others]

/-- The loop passes over samples before the window, and remembers the last. -/
theorem scan_former {cutoff : ℚ} {samples : List Sample}
    (before : ∀ sample ∈ samples, sample.time < cutoff) (previous : Option ℚ) (found : Window)
    (rest : List Sample) :
    Window.scan cutoff previous found (samples ++ rest) =
      Window.scan cutoff ((samples.getLast?.map Sample.time).or previous) found rest := by
  induction samples generalizing previous with
  | nil => simp
  | cons sample samples ih =>
      obtain ⟨first, others⟩ := List.forall_mem_cons.mp before
      rw [List.cons_append, Window.scan, if_neg (not_le.mpr first), ih others]
      congr 1
      cases samples with
      | nil => rfl
      | cons next samples =>
          rw [List.getLast?_cons_cons]
          simp [List.getLast?_cons]

/-- From the first sample of the window on, the loop adds up. -/
theorem scan_recent {cutoff : ℚ} {samples : List Sample}
    (after : ∀ sample ∈ samples, cutoff ≤ sample.time) (previous : Option ℚ) {found : Window}
    (started : 0 < found.n) :
    Window.scan cutoff previous found samples =
      ⟨found.since, found.summation + total samples, found.n + samples.length⟩ := by
  induction samples generalizing previous found with
  | nil => simp [Window.scan, total]
  | cons sample samples ih =>
      obtain ⟨first, others⟩ := List.forall_mem_cons.mp after
      rw [Window.scan, if_pos first, ih others _ (Nat.succ_pos _)]
      simp only [Nat.pos_iff_ne_zero.mp started, if_false, total, List.map_cons, List.sum_cons,
        List.length_cons, Window.mk.injEq, true_and]
      omega

/-- What the loop over an ordered history finds. -/
theorem scan_eq {cutoff : ℚ} {hist : List Sample} (increasing : Increasing hist)
    (some : recent cutoff hist ≠ []) :
    Window.scan cutoff none ⟨0, 0, 0⟩ hist =
      ⟨windowStart cutoff hist, total (recent cutoff hist), (recent cutoff hist).length⟩ := by
  obtain ⟨first, rest, split⟩ := List.exists_cons_of_ne_nil some
  have before : ∀ sample ∈ former cutoff hist, sample.time < cutoff :=
    fun sample member => (mem_former_iff.mp member).2
  have after : ∀ sample ∈ first :: rest, cutoff ≤ sample.time := by
    rw [← split]
    exact fun sample member => (mem_recent_iff.mp member).2
  obtain ⟨isRecent, others⟩ := List.forall_mem_cons.mp after
  nth_rewrite 1 [← former_append_recent cutoff increasing]
  rw [scan_former before, split, Window.scan, if_pos isRecent, scan_recent others _ (Nat.succ_pos _),
    windowStart, split]
  simp only [List.head?_cons, if_true, total, List.map_cons, List.sum_cons, List.length_cons,
    Window.mk.injEq]
  refine ⟨?_, by omega, by omega⟩
  cases (former cutoff hist).getLast? with
  | none => rfl
  | some last => rfl

/-- Without recent samples the loop finds nothing. -/
theorem scan_n_eq_zero {cutoff : ℚ} {hist : List Sample} (none : recent cutoff hist = []) :
    (Window.scan cutoff .none ⟨0, 0, 0⟩ hist).n = 0 := by
  have before : ∀ sample ∈ hist, sample.time < cutoff := by
    intro sample member
    by_contra notFormer
    have isRecent := mem_recent_iff.mpr ⟨member, not_lt.mp notFormer⟩
    exact List.not_mem_nil (none ▸ isRecent)
  rw [← List.append_nil hist, scan_former before, Window.scan]

/-- Two cutoffs with the same recent samples find the same. -/
theorem windowStart_congr {first second : ℚ} {hist : List Sample}
    (same : ∀ sample ∈ hist, first ≤ sample.time ↔ second ≤ sample.time) :
    recent first hist = recent second hist ∧ windowStart first hist = windowStart second hist := by
  have recents : recent first hist = recent second hist :=
    List.filter_congr fun sample member => by simpa using same sample member
  have formers : former first hist = former second hist :=
    List.filter_congr fun sample member => by
      simpa using not_congr (same sample member)
  exact ⟨recents, by rw [windowStart, windowStart, recents, formers]⟩

/-- The window starts at a sample of the history. -/
theorem windowStart_mem {cutoff : ℚ} {hist : List Sample} (some : recent cutoff hist ≠ []) :
    ∃ sample ∈ hist, windowStart cutoff hist = sample.time := by
  obtain ⟨first, rest, split⟩ := List.exists_cons_of_ne_nil some
  rw [windowStart, split]
  cases found : (former cutoff hist).getLast? with
  | none =>
      refine ⟨first, ?_, rfl⟩
      have member : first ∈ recent cutoff hist := by simp [split]
      exact (mem_recent_iff.mp member).1
  | some last =>
      exact ⟨last, (mem_former_iff.mp (List.mem_of_getLast? found)).1, rfl⟩

/-! ## What is reported -/

/-- The mean count of the recent samples. -/
def mean (cutoff : ℚ) (hist : List Sample) : ℚ :=
  total (recent cutoff hist) / (recent cutoff hist).length

/-- The entry of one window in the report of an ordered history. -/
def entry (now : ℚ) (hist : List Sample) (minutes : Nat) : Option (Nat × Int) :=
  let cutoff := now - minutes * 60
  if recent cutoff hist = [] then
    none
  else
    some (minutes,
      roundHalfEven (mean cutoff hist / (now - windowStart cutoff hist) * 86400))

/-- The errors of the quotient cannot be seen after the rounding: the numbers
are of moderate size, and the result is not close to the middle between two
integers. -/
def PreciseQuotient (mean elapsed : ℚ) : Prop :=
  Moderate elapsed ∧
    (mean ≠ 0 → Moderate mean ∧ Moderate (mean / elapsed) ∧ ClearOfHalves (mean / elapsed * 86400))

instance (mean elapsed : ℚ) : Decidable (PreciseQuotient mean elapsed) :=
  inferInstanceAs (Decidable (_ ∧ _))

/-- The same for a window: also its start, as it is computed, parts the samples
like the exact one. -/
def PreciseWindow (now : ℚ) (hist : List Sample) (minutes : Nat) : Prop :=
  let cutoff := now - minutes * 60
  (∀ sample ∈ hist, windowCutoff now minutes ≤ sample.time ↔ cutoff ≤ sample.time) ∧
    (recent cutoff hist ≠ [] →
      PreciseQuotient (mean cutoff hist) (now - windowStart cutoff hist))

instance (now : ℚ) (hist : List Sample) (minutes : Nat) :
    Decidable (PreciseWindow now hist minutes) :=
  inferInstanceAs (Decidable (_ ∧ _))

/-- Precise quotients are rounded like exact ones. -/
theorem notifiesPerDay_eq (now : ℚ) (found : Window)
    (precise : PreciseQuotient (found.summation / found.n) (now - found.since)) :
    notifiesPerDay now found =
      .ok (roundHalfEven (found.summation / found.n / (now - found.since) * 86400)) := by
  obtain ⟨elapsed, quotient⟩ := precise
  have within := elapsed.normal.within_nearest
  have positive : 0 < nearest (now - found.since) :=
    lt_of_lt_of_le (mul_pos (by norm_num [roundoff]) elapsed.normal.pos)
      (Within.iff_bounds.mp within).1
  have notZero : ¬Number.finite (nearest (now - found.since)) = .finite 0 := by
    intro zero
    exact positive.ne' (Number.finite.inj zero)
  by_cases none : (found.summation / found.n : ℚ) = 0
  · simp only [notifiesPerDay, none, ofRat_zero, elapsed.normal.ofRat_eq, notZero, if_false, divide,
      times, zero_div, zero_mul]
    rfl
  · obtain ⟨moderate, quotientModerate, clear⟩ := quotient none
    obtain ⟨result, computed, near⟩ :=
      exists_times_divide moderate elapsed quotientModerate 86400 (by norm_num) (by norm_num)
    simp only [notifiesPerDay, moderate.normal.ofRat_eq, elapsed.normal.ofRat_eq, notZero, if_false,
      computed, clear.roundHalfEven_eq near]
    rfl

theorem reportWindow_eq {now : ℚ} {hist : List Sample} (increasing : Increasing hist)
    {minutes : Nat} (precise : PreciseWindow now hist minutes) (perDay : List (Nat × Int)) :
    reportWindow now hist perDay minutes = .ok (perDay ++ (entry now hist minutes).toList) := by
  obtain ⟨cutoff, quotient⟩ := precise
  obtain ⟨recents, starts⟩ := windowStart_congr cutoff
  by_cases none : recent (now - minutes * 60) hist = []
  · simp only [reportWindow, window, entry, none, if_true, scan_n_eq_zero (recents.trans none),
      lt_irrefl, if_false, Option.toList_none, List.append_nil]
    rfl
  · have counted : 0 < (recent (now - minutes * 60) hist).length := List.length_pos_iff.mpr none
    have found : window now minutes hist = _ := scan_eq increasing (by rwa [recents])
    rw [recents, starts] at found
    have rate := notifiesPerDay_eq now (window now minutes hist)
      (by rw [found]; exact quotient none)
    rw [found] at rate
    simp only [reportWindow, found, counted, if_true, rate, Fallible.ok_bind, entry, none, if_false,
      Option.toList_some, mean]
    rfl

theorem foldlM_reportWindow {now : ℚ} {hist : List Sample} (increasing : Increasing hist)
    {minutes : List Nat} (precise : ∀ each ∈ minutes, PreciseWindow now hist each)
    (perDay : List (Nat × Int)) :
    minutes.foldlM (reportWindow now hist) perDay =
      .ok (perDay ++ minutes.filterMap (entry now hist)) := by
  induction minutes generalizing perDay with
  | nil => simp [pure, Except.pure]
  | cons first rest ih =>
      obtain ⟨here, later⟩ := List.forall_mem_cons.mp precise
      rw [List.foldlM_cons, reportWindow_eq increasing here, Fallible.ok_bind, ih later]
      cases found : entry now hist first with
      | none => simp [found]
      | some reported => simp [found]

/-! ## Histories of calls -/

/-- The statistics together with all calls of `collect` so far. -/
structure Collector where
  stats : NotifyStats
  log : List Sample
  deriving DecidableEq

inductive StatsEvent where
  /-- Counts that are added between two calls of `collect`. -/
  | record (notifies notifyRetries failures : Nat)
  | collect (now : ℚ)

namespace Collector

def initial : Collector where
  stats := .initial
  log := []

/-- Calls of `collect` come at strictly increasing times, which are numbers of
double precision; one that raises an exception leaves the statistics as they
are. -/
def step (collector : Collector) : StatsEvent → Option Collector
  | .record notifies notifyRetries failures =>
      some { collector with
        stats := { collector.stats with
          notifies := collector.stats.notifies + notifies
          notifyRetries := collector.stats.notifyRetries + notifyRetries
          failures := collector.stats.failures + failures } }
  | .collect now =>
      if nearest now = now ∧ ∀ sample ∈ collector.log, sample.time < now then
        match collector.stats.collect now with
        | .ok (_, stats) => some ⟨stats, collector.log ++ [⟨now, collector.stats.notifies⟩]⟩
        | .error _ => some collector
      else
        none

/-- The calls that fall into a window. -/
def inWindow (collector : Collector) (now : ℚ) (minutes : Nat) : List Sample :=
  recent (now - minutes * 60) collector.log

/-- Notifications per day in a window, exactly. -/
def rate (collector : Collector) (now : ℚ) (minutes : Nat) : ℚ :=
  86400 * total (collector.inWindow now minutes) /
    (now - windowStart (now - minutes * 60) collector.stats.notifyHist)

/-- What is reported are the rounded rates. -/
def ReportsRates (collector : Collector) : StatsEvent → Prop
  | .record _ _ _ => True
  | .collect now => ∃ report stats, collector.stats.collect now = .ok (report, stats) ∧
      ∀ minutes value, (minutes, value) ∈ report.perDay →
        value = roundHalfEven (collector.rate now minutes)

/-- Each window holds at most one call, or the rate is so small that the
rounding hides a division by the number of calls. -/
def OneCallOrSmall (collector : Collector) : StatsEvent → Prop
  | .record _ _ _ => True
  | .collect now => ∀ minutes ∈ windows,
      (collector.inWindow now minutes).length ≤ 1 ∨ collector.rate now minutes ≤ 1 / 2 ∨
        (collector.inWindow now minutes).length = 2 ∧
          1 < collector.rate now minutes ∧ collector.rate now minutes < 3 / 2

/-- The errors of the arithmetic cannot be seen in any window. -/
def Precise (collector : Collector) : StatsEvent → Prop
  | .record _ _ _ => True
  | .collect now => ∀ minutes ∈ windows, PreciseWindow now collector.stats.notifyHist minutes

instance (collector : Collector) : DecidablePred collector.Precise
  | .record _ _ _ => isTrue trivial
  | .collect now =>
      inferInstanceAs
        (Decidable (∀ minutes ∈ windows, PreciseWindow now collector.stats.notifyHist minutes))

/-- The history is the end of all calls, without those that were more than an
hour before a later one. -/
structure Kept (collector : Collector) : Prop where
  increasing : Increasing collector.log
  dropped : ∃ old, collector.log = old ++ collector.stats.notifyHist ∧
    ∀ sample ∈ old, ∃ later ∈ collector.log, sample.time < later.time - 3600

theorem kept_initial : initial.Kept where
  increasing := List.Pairwise.nil
  dropped := ⟨[], rfl, by simp⟩

variable {collector : Collector}

theorem Kept.hist_increasing (kept : collector.Kept) : Increasing collector.stats.notifyHist := by
  obtain ⟨old, split, -⟩ := kept.dropped
  have increasing := kept.increasing
  rw [split] at increasing
  exact (List.pairwise_append.mp increasing).2.1

theorem Kept.mem_log (kept : collector.Kept) {sample : Sample}
    (member : sample ∈ collector.stats.notifyHist) : sample ∈ collector.log := by
  obtain ⟨old, split, -⟩ := kept.dropped
  rw [split]
  exact List.mem_append_right old member

/-- The dropped calls are in no window. -/
theorem Kept.inWindow_eq (kept : collector.Kept) {now : ℚ}
    (later : ∀ sample ∈ collector.log, sample.time < now) {minutes : Nat} (hour : minutes ≤ 60) :
    collector.inWindow now minutes = recent (now - minutes * 60) collector.stats.notifyHist := by
  obtain ⟨old, split, expired⟩ := kept.dropped
  have none : recent (now - minutes * 60) old = [] := by
    refine List.eq_nil_iff_forall_not_mem.mpr fun sample member => ?_
    obtain ⟨isOld, isRecent⟩ := mem_recent_iff.mp member
    obtain ⟨other, called, before⟩ := expired sample isOld
    have atMost : (minutes : ℚ) ≤ 60 := by exact_mod_cast hour
    have past := later other called
    linarith
  rw [inWindow, split, recent, List.filter_append]
  exact (congrArg (· ++ _) none).trans (List.nil_append _)

theorem Kept.collect_eq (kept : collector.Kept) {now : ℚ}
    (precise : collector.Precise (.collect now)) :
    ∃ stats, collector.stats.collect now =
        .ok (⟨collector.stats.notifies, collector.stats.notifyRetries, collector.stats.failures,
          windows.filterMap (entry now collector.stats.notifyHist)⟩, stats) ∧
      stats.notifyHist = trimHist (nearest (now - 3600)) collector.stats.notifyHist ++
        [⟨now, collector.stats.notifies⟩] := by
  rw [NotifyStats.collect, foldlM_reportWindow kept.hist_increasing precise, Fallible.ok_bind,
    List.nil_append]
  exact ⟨_, rfl, rfl⟩

/-- Trimming drops old samples from the front. -/
theorem exists_trimHist (cutoff : ℚ) (hist : List Sample) :
    ∃ dropped, hist = dropped ++ trimHist cutoff hist ∧ ∀ sample ∈ dropped, sample.time < cutoff := by
  induction hist with
  | nil => exact ⟨[], rfl, by simp⟩
  | cons sample rest ih =>
      rw [trimHist]
      split_ifs with expired
      · obtain ⟨dropped, split, before⟩ := ih
        refine ⟨sample :: dropped, ?_, List.forall_mem_cons.mpr ⟨expired, before⟩⟩
        rw [List.cons_append, ← split]
      · exact ⟨[], rfl, by simp⟩

/-- The samples that the computed cutoff drops are more than an hour old. -/
theorem Precise.before_hour {now : ℚ} (precise : collector.Precise (.collect now))
    {sample : Sample} (member : sample ∈ collector.stats.notifyHist)
    (before : sample.time < nearest (now - 3600)) : sample.time < now - 3600 := by
  obtain ⟨cutoff, -⟩ := precise 60 (by decide)
  have same := cutoff sample member
  have hour : now - (60 : Nat) * 60 = now - 3600 := by norm_num
  rw [windowCutoff, hour] at same
  exact not_le.mp fun recent => not_le.mpr before (same.mpr recent)

theorem Kept.collect (kept : collector.Kept) {now : ℚ}
    (later : ∀ sample ∈ collector.log, sample.time < now)
    (precise : collector.Precise (.collect now)) {stats : NotifyStats}
    (hist : stats.notifyHist = trimHist (nearest (now - 3600)) collector.stats.notifyHist ++
      [⟨now, collector.stats.notifies⟩]) :
    Kept ⟨stats, collector.log ++ [⟨now, collector.stats.notifies⟩]⟩ where
  increasing := by
    refine List.pairwise_append.mpr ⟨kept.increasing, List.pairwise_singleton _ _, ?_⟩
    intro sample member new isNew
    rw [List.mem_singleton.mp isNew]
    exact later sample member
  dropped := by
    obtain ⟨old, split, expired⟩ := kept.dropped
    obtain ⟨dropped, trimmed, before⟩ :=
      exists_trimHist (nearest (now - 3600)) collector.stats.notifyHist
    refine ⟨old ++ dropped, ?_, ?_⟩
    · change collector.log ++ _ = old ++ dropped ++ stats.notifyHist
      rw [hist, List.append_assoc, ← List.append_assoc dropped, ← trimmed, ← List.append_assoc old,
        ← split]
    · intro sample member
      rcases List.mem_append.mp member with wasOld | isDropped
      · obtain ⟨other, called, distance⟩ := expired sample wasOld
        exact ⟨other, List.mem_append_left _ called, distance⟩
      · have wasKept : sample ∈ collector.stats.notifyHist := by
          rw [trimmed]
          exact List.mem_append_left _ isDropped
        exact ⟨⟨now, collector.stats.notifies⟩, List.mem_append_right _ (List.mem_singleton_self _),
          precise.before_hour wasKept (before sample isDropped)⟩

theorem Kept.step (kept : collector.Kept) {event : StatsEvent} {next : Collector}
    (taken : collector.step event = some next) (precise : collector.Precise event) :
    next.Kept := by
  cases event with
  | record notifies notifyRetries failures =>
      obtain rfl := Option.some.inj taken
      exact ⟨kept.increasing, kept.dropped⟩
  | collect now =>
      simp only [Collector.step] at taken
      split_ifs at taken with possible
      obtain ⟨stats, collected, hist⟩ := kept.collect_eq precise
      rw [collected] at taken
      obtain rfl := Option.some.inj taken
      exact kept.collect possible.2 precise hist

theorem windows_le_hour : ∀ minutes ∈ windows, minutes ≤ 60 := by
  decide

theorem Kept.rate_nonneg (kept : collector.Kept) {now : ℚ}
    (later : ∀ sample ∈ collector.log, sample.time < now) {minutes : Nat}
    (some : recent (now - minutes * 60) collector.stats.notifyHist ≠ []) :
    0 ≤ collector.rate now minutes := by
  obtain ⟨sample, member, start⟩ := windowStart_mem some
  have past := later sample (kept.mem_log member)
  have elapsed : 0 ≤ now - windowStart (now - minutes * 60) collector.stats.notifyHist := by
    rw [start]
    linarith
  exact div_nonneg (by positivity) elapsed

theorem minutes_of_entry {now : ℚ} {hist : List Sample} {minutes other : Nat} {value : Int}
    (reported : entry now hist minutes = some (other, value)) : minutes = other := by
  simp only [entry] at reported
  split_ifs at reported
  exact congrArg Prod.fst (Option.some.inj reported)

/-- The entry of a window is the rate, divided by the number of calls. -/
theorem Kept.entry_eq (kept : collector.Kept) {now : ℚ}
    (later : ∀ sample ∈ collector.log, sample.time < now) {minutes : Nat} (hour : minutes ≤ 60)
    (some : recent (now - minutes * 60) collector.stats.notifyHist ≠ []) :
    entry now collector.stats.notifyHist minutes =
      .some (minutes, roundHalfEven
        (collector.rate now minutes / (collector.inWindow now minutes).length)) := by
  have same : ∀ sum elapsed count : ℚ,
      sum / count / elapsed * 86400 = 86400 * sum / elapsed / count := by
    intro sum elapsed count
    ring
  simp only [entry, some, if_false, mean, rate, kept.inWindow_eq later hour, same]

/-- One call of `collect`. -/
theorem Kept.reportsRates_iff (kept : collector.Kept) {event : StatsEvent} {next : Collector}
    (taken : collector.step event = some next) (precise : collector.Precise event) :
    collector.ReportsRates event ↔ collector.OneCallOrSmall event := by
  cases event with
  | record notifies notifyRetries failures => exact Iff.rfl
  | collect now =>
      simp only [Collector.step] at taken
      split_ifs at taken with possible
      have later := possible.2
      obtain ⟨stats, collected, -⟩ := kept.collect_eq precise
      have reported : collector.ReportsRates (.collect now) ↔ ∀ minutes ∈ windows, ∀ value,
          entry now collector.stats.notifyHist minutes = some (minutes, value) →
            value = roundHalfEven (collector.rate now minutes) := by
        constructor
        · rintro ⟨report, after, found, rates⟩ minutes member value isEntry
          rw [collected] at found
          cases found
          exact rates minutes value (List.mem_filterMap.mpr ⟨minutes, member, isEntry⟩)
        · intro rates
          refine ⟨_, stats, collected, fun minutes value listed => ?_⟩
          obtain ⟨other, member, isEntry⟩ := List.mem_filterMap.mp listed
          obtain rfl := minutes_of_entry isEntry
          exact rates other member value isEntry
      rw [reported]
      refine forall₂_congr fun minutes member => ?_
      have hour := windows_le_hour minutes member
      by_cases none : recent (now - minutes * 60) collector.stats.notifyHist = []
      · simp [entry, none, kept.inWindow_eq later hour]
      · have counted : 0 < (collector.inWindow now minutes).length := by
          rw [kept.inWindow_eq later hour]
          exact List.length_pos_iff.mpr none
        have oneCall : (collector.inWindow now minutes).length ≤ 1 ↔
            (collector.inWindow now minutes).length = 1 := by
          omega
        rw [kept.entry_eq later hour none, oneCall,
          ← roundHalfEven_div_eq_iff (kept.rate_nonneg later none) counted]
        simp

/-- Along every history of calls whose arithmetic is precise, the reports are
rates exactly as long as the windows hold one call or the rates are small. -/
theorem always_reports_rates_iff (events : List StatsEvent)
    (precise : Run.EveryStep step (fun collector event _ => collector.Precise event) initial
      events) :
    Run.EveryStep step (fun collector event _ => collector.ReportsRates event) initial events ↔
      Run.EveryStep step (fun collector event _ => collector.OneCallOrSmall event) initial events :=
  Run.everyStep_iff_of_assumed Kept (fun collector event _ => collector.OneCallOrSmall event)
    (fun collector event _ => collector.ReportsRates event) kept_initial
    (fun _ _ _ kept taken precise => kept.reportsRates_iff taken precise)
    (fun _ _ _ kept taken precise _ => kept.step taken precise) precise

/-- Ten notifications, collected after more than an hour. -/
def tenAfterHour : List StatsEvent :=
  [.collect 0, .record 10 0 0, .collect 4000, .collect 4010]

theorem tenAfterHour_reports_rates_iff :
    Run.EveryStep step (fun collector event _ => collector.ReportsRates event) initial
        tenAfterHour ↔
      Run.EveryStep step (fun collector event _ => collector.OneCallOrSmall event) initial
        tenAfterHour :=
  always_reports_rates_iff tenAfterHour
    (Run.EveryStep.of_testSteps (fun collector event => decide (collector.Precise event))
      (fun _ _ tested => of_decide_eq_true tested) (by decide +kernel))

/-- The state after ten notifications and two calls of `collect`. -/
def tenNotified : Collector where
  stats := ⟨0, 0, 0, 10, 0, 0, [⟨0, 0⟩, ⟨5, 10⟩]⟩
  log := [⟨0, 0⟩, ⟨5, 10⟩]

/-- The state after eleven notifications and one call of `collect`. -/
def elevenNotified : Collector where
  stats := ⟨0, 0, 0, 11, 0, 0, [⟨0, 11⟩]⟩
  log := [⟨0, 11⟩]

/-- A rate that is reported for an hour, and is not the right one. -/
theorem not_reportsRates {collector next : Collector} {now : ℚ} {events : List StatsEvent}
    (run : Run.exec step initial events = some collector)
    (taken : collector.step (.collect now) = some next) (reported : Int)
    (hourly : (collector.stats.collect now).map (fun result => result.1.perDay.head?) =
      .ok (some (60, reported)))
    (wrong : reported ≠ roundHalfEven (collector.rate now 60)) :
    ¬Run.EveryStep step (fun collector event _ => collector.ReportsRates event) initial
      (events ++ [.collect now]) := by
  intro always
  obtain ⟨report, stats, collected, rates⟩ := always.last run taken
  rw [collected] at hourly
  exact wrong (rates 60 reported (List.mem_of_mem_head? (Except.ok.inj hourly)))

/-- Ten notifications in ten seconds are 86400 a day, and 43200 are reported.
Eleven notifications in 1280 seconds are 742 and a half a day, which is rounded
to 742, and 743 are reported. -/
theorem not_always_reports_rates :
    ¬Run.EveryStep step (fun collector event _ => collector.ReportsRates event) initial
        [.collect 0, .record 10 0 0, .collect 5, .collect 10] ∧
      ¬Run.EveryStep step (fun collector event _ => collector.ReportsRates event) initial
        [.record 11 0 0, .collect 0, .collect 1280] := by
  constructor
  · have run : Run.exec step initial [.collect 0, .record 10 0 0, .collect 5] = some tenNotified := by
      decide +kernel
    have goesOn : (tenNotified.step (.collect 10)).isSome = true := by decide +kernel
    obtain ⟨next, taken⟩ := Option.isSome_iff_exists.mp goesOn
    exact not_reportsRates run taken 43200 (by decide +kernel) (by decide +kernel)
  · have run : Run.exec step initial [.record 11 0 0, .collect 0] = some elevenNotified := by
      decide +kernel
    have goesOn : (elevenNotified.step (.collect 1280)).isSome = true := by decide +kernel
    obtain ⟨next, taken⟩ := Option.isSome_iff_exists.mp goesOn
    exact not_reportsRates run taken 743 (by decide +kernel) (by decide +kernel)

end Collector

end Spns.Notifiers
