import Larder.Cli.App

/-!
# How long entries may be kept

A configuration may ask for any lifetime that a number of 64 bits can tell, in seconds. Two limits stand
behind it. The duration itself is counted in milliseconds, in 63 bits: beyond that the application does
not start. And a purge has to name the instant that lies the lifetime before now: beyond the first
instant that can be named, the task that purges ends at its first turn, and nothing is evicted any more.
The second limit is always the lower one, and it lies a quarter of a million years back.
-/

namespace Larder

/-! ## Moving back in time -/

namespace Instant

/-- An instant of this century. -/
structure InThisCentury (t : Instant) : Prop where
  /-- It is not before the year 2000. -/
  notBefore : daysOfDate 2000 1 1 * 86400 ≤ t.seconds
  /-- It is before the year 2101. -/
  before : t.seconds < daysOfDate 2101 1 1 * 86400
  /-- Its second lasts for one second, or for two if it leaps. -/
  nanos : t.nanos < 2000000000

theorem first_eq : first = ⟨-8334601228800, 0⟩ := by decide +kernel

theorem last_eq : last = ⟨8210266876799, 999999999⟩ := by decide +kernel

theorem atMost_iff (a b : Instant) :
    a.atMost b = true ↔ a.seconds < b.seconds ∨ a.seconds = b.seconds ∧ a.nanos ≤ b.nanos := by
  unfold atMost compare
  rw [Ordering.isLE_then_iff_and, Int.isLE_compare, Nat.isLE_compare, Int.compare_eq_lt]
  omega

variable {t : Instant}

theorem InThisCentury.seconds_ge (h : t.InThisCentury) : 946684800 ≤ t.seconds :=
  Int.le_trans (by decide +kernel) h.notBefore

theorem InThisCentury.seconds_lt (h : t.InThisCentury) : t.seconds < 4133980800 :=
  Int.lt_of_lt_of_le h.before (by decide +kernel)

/-- How far back this century may look. -/
theorem InThisCentury.millisBetween_first (h : t.InThisCentury) :
    8335000000000000 ≤ first.millisBetween t ∧ first.millisBetween t < 8340000000000000 := by
  have hge := h.seconds_ge
  have hlt := h.seconds_lt
  have hnanos := h.nanos
  rw [first_eq]
  unfold millisBetween
  dsimp only
  rw [Int.tdiv_eq_ediv_of_nonneg (by omega)]
  omega

/-- The instants that lie milliseconds back can be named as far as the first of them. -/
theorem InThisCentury.minusMillis?_isSome_iff (h : t.InThisCentury) (ttl : Nat) :
    (t.minusMillis? ttl).isSome ↔ (ttl : Int) ≤ first.millisBetween t := by
  have hge := h.seconds_ge
  have hlt := h.seconds_lt
  have hnanos := h.nanos
  unfold minusMillis? millisBetween
  dsimp only
  rw [Option.isSome_ite, Bool.and_eq_true, atMost_iff, atMost_iff, first_eq, last_eq]
  dsimp only
  rw [Int.fdiv_eq_ediv_of_nonneg _ (by decide), Int.tdiv_eq_ediv_of_nonneg (by omega)]
  omega

end Instant

/-! ## What a configuration can ask for -/

namespace Configuration

open Yaml

theorem count?_lt {node : Node} {n : Nat} (h : count? node = some n) : n < Nat.pow 2 64 := by
  obtain ⟨m, -, hm⟩ := Option.bind_eq_some_iff.1 h
  split at hm
  next hlt =>
    cases hm
    exact hlt
  next => cases hm

/-- What holds of all that can be read for a field, and of its default, holds of the field. -/
theorem field?_all {α : Type} {P : α → Prop} {fields : List (String × Node)} {name : String}
    {read : Node → Option α} {fallback : Option α} {a : α} (h : field? fields name read fallback = some a)
    (hread : ∀ node a, read node = some a → P a) (hfallback : ∀ a, fallback = some a → P a) : P a := by
  unfold field? at h
  split at h
  · exact hfallback a h
  · exact hread _ a h
  · cases h

theorem ttlSecs_of_keeping? {d : Document} {node : Node} {k : Keeping} (h : keeping? d node = some k) :
    k.ttlSecs < Nat.pow 2 64 := by
  obtain ⟨fields, -, h⟩ := Option.bind_eq_some_iff.1 h
  obtain ⟨ttl, httl, h⟩ := Option.bind_eq_some_iff.1 h
  obtain ⟨interval, -, h⟩ := Option.bind_eq_some_iff.1 h
  cases h
  exact field?_all (P := fun n => n < Nat.pow 2 64) httl (fun _ _ => count?_lt)
    fun _ hfallback => by cases hfallback; decide

theorem ttlSecs_of_document {d : Document} {c : Configuration} (h : ofDocument? d = some c) :
    c.cache.ttlSecs < Nat.pow 2 64 := by
  obtain ⟨fields, -, h⟩ := Option.bind_eq_some_iff.1 h
  obtain ⟨server, -, h⟩ := Option.bind_eq_some_iff.1 h
  obtain ⟨cache, hcache, h⟩ := Option.bind_eq_some_iff.1 h
  obtain ⟨log, -, h⟩ := Option.bind_eq_some_iff.1 h
  cases h
  exact field?_all (P := fun k => k.ttlSecs < Nat.pow 2 64) hcache (fun _ _ => ttlSecs_of_keeping?)
    fun _ hfallback => by cases hfallback; decide

theorem ttlSecs_of_yaml {s : String} {c : Configuration} (h : ofYaml? s = some c) :
    c.cache.ttlSecs < Nat.pow 2 64 := by
  unfold ofYaml? at h
  split at h
  · cases h; decide
  · exact ttlSecs_of_document h
  · cases h

variable {look : String → Found} {named directory : Option String} {c : Configuration}

theorem ofFile_eq_ok {path : String} {found : Found} (h : ofFile path found = .ok c) :
    ∃ contents e, ofYaml? contents = some c ∧ c.endpoint = .ok e := by
  unfold ofFile at h
  split at h
  · cases h
  · cases h
  next contents =>
    split at h
    · cases h
    next hyaml =>
      split at h
      · cases h
      next e hendpoint =>
        cases h
        exact ⟨contents, e, hyaml, hendpoint⟩

theorem firstOf_eq_ok {paths : List String}
    (h : Id.run (firstOf (fun path => pure (look path)) paths) = .ok c) :
    c = {} ∨ ∃ contents e, ofYaml? contents = some c ∧ c.endpoint = .ok e := by
  induction paths with
  | nil => cases h; exact .inl rfl
  | cons path rest ih =>
      unfold firstOf at h
      simp only [pure_bind] at h
      split at h
      · exact ih h
      · exact .inr (ofFile_eq_ok h)

/-- A configuration that is accepted is the usual one, or it comes from a text and its server is an
endpoint. -/
theorem load_eq_ok (h : Id.run (load (fun path => pure (look path)) named directory) = .ok c) :
    c = {} ∨ ∃ contents e, ofYaml? contents = some c ∧ c.endpoint = .ok e := by
  cases named with
  | none => exact firstOf_eq_ok h
  | some path => exact .inr (ofFile_eq_ok h)

/-- Up to this many seconds a lifetime can be counted in milliseconds. -/
theorem ttlMillis?_eq (c : Configuration) :
    c.ttlMillis? = if c.cache.ttlSecs ≤ 9223372036854775 then some (c.cache.ttlSecs * 1000) else none := by
  have hpow : Nat.pow 2 63 = 9223372036854775808 := rfl
  unfold ttlMillis? longestMillis
  simp only [hpow]
  by_cases hle : c.cache.ttlSecs ≤ 9223372036854775
  · rw [if_pos hle, Nat.min_eq_left (by omega), if_pos hle]
  · rw [if_neg hle, if_neg (by omega)]

theorem eq_of_ttlMillis? {ttl : Nat} (h : c.ttlMillis? = some ttl) : ttl = c.cache.ttlSecs * 1000 := by
  rw [ttlMillis?_eq] at h
  split at h
  · exact (Option.some.inj h).symm
  · cases h

theorem start_eq_brokenDown_iff {clock : Instant} {service : World.Service} :
    Cli.App.start c clock service = .error .brokenDown
      ↔ (∃ e, c.endpoint = .ok e) ∧ c.ttlMillis? = none := by
  unfold Cli.App.start
  cases c.endpoint with
  | error rejection => simp
  | ok e => cases c.ttlMillis? <;> simp

end Configuration

/-! ## Purges -/

theorem Resource.purgeOlder_isSome {κ ν : Type} [EntryKey κ] (r : Resource κ ν) (now : Instant)
    (ttl : Int) : (r.purgeOlder now ttl).isSome = (now.minusMillis? ttl).isSome :=
  Option.isSome_map

namespace World

/-- It is the turn of a purge with a lifetime: it is due, and its resource is there. -/
def PurgeDue (w : World) (n : Nat) (ttl : Int) : Prop :=
  ∃ t due h, w.purges.get? n = some t ∧ t.ttl = ttl ∧ 0 < t.interval ∧ t.due = some due ∧ due ≤ w.timer
    ∧ w.holding? t.slot = some h ∧ h.visit (fun s => s.isAlive) = true

/-- A purge that has its turn goes on if the instant it looks back to can be named, and else it ends. -/
theorem runPurge_stays_iff {w : World} {n : Nat} {ttl : Int} (hturn : w.PurgeDue n ttl) :
    ((w.runPurge n).purges.get? n).isSome ↔ (w.clock.minusMillis? ttl).isSome := by
  obtain ⟨t, due, h, ht, rfl, hinterval, hdue, hnow, hh, halive⟩ := hturn
  unfold runPurge
  simp only [ht, hdue, if_neg (Nat.ne_of_gt hinterval), if_neg (Nat.not_lt.2 hnow), hh, halive, change]
  cases hcutoff : w.clock.minusMillis? t.ttl with
  | none => cases h <;> simp [Holding.change, Resource.purgeOlder, hcutoff]
  | some cutoff => cases h <;> simp [Holding.change, Resource.purgeOlder, hcutoff]

end World

/-! ## Which lifetimes fit -/

namespace Configuration

variable {look : String → Found} {named directory : Option String} {c : Configuration}

/--
**Which lifetimes fit.**

Of a configuration that is accepted the lifetime is a number of 64 bits. The application breaks down at
its start if the lifetime's milliseconds cannot be counted in 63 bits. Purges are possible, and go on, if
the lifetime leads from now to an instant that can be named. In this century any number of seconds up to
`8335000000000` does.
-/
theorem lifetime_fits_iff (hload : Id.run (load (fun path => pure (look path)) named directory) = .ok c)
    {now : Instant} (hnow : now.InThisCentury) :
    c.cache.ttlSecs < Nat.pow 2 64
    ∧ (∀ clock service,
        Cli.App.start c clock service = .error .brokenDown ↔ 9223372036854775 < c.cache.ttlSecs)
    ∧ (∀ (κ ν : Type) [EntryKey κ] (r : Resource κ ν),
        (∃ ttl purged, c.ttlMillis? = some ttl ∧ r.purgeOlder now ttl = some purged)
          ↔ (c.cache.ttlSecs * 1000 : Nat) ≤ Instant.first.millisBetween now)
    ∧ (∀ (w : World) (n ttl : Nat), c.ttlMillis? = some ttl → w.clock = now → w.PurgeDue n ttl →
        (((w.runPurge n).purges.get? n).isSome
          ↔ (c.cache.ttlSecs * 1000 : Nat) ≤ Instant.first.millisBetween now))
    ∧ 8335000000000 * 1000 ≤ Instant.first.millisBetween now := by
  obtain ⟨hfar, hnear⟩ := hnow.millisBetween_first
  refine ⟨?bits, fun clock service => ?starts, fun κ ν _ r => ?purges, ?stays, hfar⟩
  case bits =>
    rcases load_eq_ok hload with rfl | ⟨contents, e, hyaml, -⟩
    · decide
    · exact ttlSecs_of_yaml hyaml
  case starts =>
    rw [start_eq_brokenDown_iff, ttlMillis?_eq]
    rcases load_eq_ok hload with rfl | ⟨contents, e, -, he⟩
    · simp
    · simp [he]
  case purges =>
    rw [← hnow.minusMillis?_isSome_iff, ← r.purgeOlder_isSome]
    constructor
    · rintro ⟨ttl, purged, httl, hpurged⟩
      rw [← eq_of_ttlMillis? httl, hpurged]
      rfl
    · intro hsome
      obtain ⟨purged, hpurged⟩ := Option.isSome_iff_exists.1 hsome
      refine ⟨_, purged, ?_, hpurged⟩
      rw [r.purgeOlder_isSome, hnow.minusMillis?_isSome_iff] at hsome
      rw [ttlMillis?_eq, if_pos (by omega)]
  case stays =>
    rintro w n ttl httl rfl hturn
    rw [World.runPurge_stays_iff hturn, hnow.minusMillis?_isSome_iff, eq_of_ttlMillis? httl]

/-- A file that asks for a lifetime. -/
def asking (seconds : String) : Found :=
  .text ("server:\n  url: http://[::1]:8978/api/gql\ncache:\n  ttl_secs: " ++ seconds ++ "\n")

/-- What a file asks for that names a lifetime. -/
def asked (seconds : Nat) : Configuration :=
  { server := { url := "http://[::1]:8978/api/gql" }, cache := { ttlSecs := seconds } }

theorem eq_ok_of_toOption {ε α : Type} {x : Except ε α} {a : α} (h : x.toOption = some a) : x = .ok a := by
  cases x with
  | error e => cases h
  | ok b => cases h; rfl

/-- With a lifetime of a thousand years the application does not break down, and entries are purged
today. -/
theorem lifetime_fits_millennium :
    Id.run (load (fun _ => pure (asking "31556952000")) none none) = .ok (asked 31556952000)
    ∧ Cli.App.start (asked 31556952000) ⟨1704067200, 0⟩ {} ≠ .error .brokenDown
    ∧ ∃ ttl purged, (asked 31556952000).ttlMillis? = some ttl
      ∧ Resource.purgeOlder ({ name := "entries" } : Resource String Nat) ⟨1704067200, 0⟩ ttl
        = some purged := by
  have hload : Id.run (load (fun _ => pure (asking "31556952000")) none none) = .ok (asked 31556952000) :=
    eq_ok_of_toOption (by decide +kernel)
  have hnow : Instant.InThisCentury ⟨1704067200, 0⟩ :=
    ⟨by decide +kernel, by decide +kernel, by decide⟩
  obtain ⟨-, hstarts, hpurges, -, hfar⟩ := lifetime_fits_iff hload hnow
  have hfits : (((asked 31556952000).cache.ttlSecs * 1000 : Nat) : Int) ≤ 8335000000000 * 1000 := by decide
  refine ⟨hload, fun hbroken => ?_, (hpurges String Nat _).2 (Int.le_trans hfits hfar)⟩
  exact absurd ((hstarts _ _).1 hbroken) (by decide)

/-- Of two lifetimes that are accepted one cannot be counted, and the other leads from today to no instant
that can be named. -/
theorem lifetime_overflows :
    (Id.run (load (fun _ => pure (asking "9223372036854775807")) none none)
        = .ok (asked 9223372036854775807)
      ∧ (asked 9223372036854775807).ttlMillis? = none)
    ∧ Id.run (load (fun _ => pure (asking "9000000000000")) none none) = .ok (asked 9000000000000)
      ∧ (asked 9000000000000).ttlMillis? = some 9000000000000000
      ∧ Resource.purgeOlder ({ name := "entries" } : Resource String Nat) ⟨1704067200, 0⟩ 9000000000000000
        = none := by
  refine ⟨⟨eq_ok_of_toOption (by decide +kernel), by decide +kernel⟩,
    eq_ok_of_toOption (by decide +kernel), by decide +kernel, ?_⟩
  rw [← Option.isNone_iff_eq_none]
  decide +kernel

end Configuration

end Larder
