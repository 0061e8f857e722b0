/-
  Sorobill.Endpoints.Revenue
  ──────────────────────────
  **DAILY REVENUE**: `GET /merchants/:address/revenue`.

  The route adds each payment to the entry of the day that its `createdAt`
  prints.  For years of four digits that text is the UTC day, and sorts like it.

    • `isoDate_lt` — later days print as later texts;
    • `revenue_partitions` — the entries are the days with a payment, in order,
      each with the sum of its amounts, and together they are all payments.
-/
import Sorobill.Endpoints.Sums
import Sorobill.Model.Merchants

namespace Sorobill

open Calendar
open JavaScript (Numeric)
open Regex

/-! ## §1. Printed days. -/

/-- The characters of `YYYY-MM-DD`. -/
def dateChars (day : Int) : List Char :=
  digits 4 (yearOfDay day).toNat ++ '-' :: (digits 2 (monthOfDay day + 1)
    ++ '-' :: digits 2 (dateOfDay day).toNat)

def isoDate (day : Int) : String := String.ofList (dateChars day)

/-- The year of the day has four digits. -/
def FourDigits (day : Int) : Prop := 0 ≤ yearOfDay day ∧ yearOfDay day ≤ 9999

theorem lt_append {a b : List Char} (hlength : a.length = b.length) (h : a < b) (x y : List Char) :
    a ++ x < b ++ y := by
  induction a generalizing b with
  | nil =>
      rw [List.length_nil, eq_comm, List.length_eq_zero_iff] at hlength
      rw [hlength] at h
      exact absurd h (List.lt_irrefl [])
  | cons c a ih =>
      cases b with
      | nil => cases hlength
      | cons d b =>
          rw [List.cons_append, List.cons_append, List.cons_lt_cons_iff]
          rcases List.cons_lt_cons_iff.mp h with hlt | ⟨heq, hlt⟩
          · exact .inl hlt
          · exact .inr ⟨heq, ih (Nat.succ.inj hlength) hlt⟩

/-- **Numerals of one width sort like their numbers.** -/
theorem digits_lt {w : Nat} : ∀ {n m : Nat}, n < m → m < 10 ^ w → digits w n < digits w m := by
  induction w with
  | zero =>
      intro n m hlt hm
      rw [pow_zero] at hm
      omega
  | succ w ih =>
      intro n m hlt hm
      have hlength : (digits w (n / 10)).length = (digits w (m / 10)).length := by
        rw [digits_length, digits_length]
      rw [pow_succ] at hm
      rcases Nat.lt_or_eq_of_le (Nat.div_le_div_right hlt.le : n / 10 ≤ m / 10) with hq | hq
      · exact lt_append hlength (ih hq (by omega)) _ _
      · have hdigit : ∀ a < 10, ∀ b < 10, a < b → Nat.digitChar a < Nat.digitChar b := by decide
        unfold digits
        rw [hq]
        apply List.append_left_lt
        rw [List.cons_lt_cons_iff]
        exact .inl (hdigit _ (Nat.mod_lt n (by decide)) _ (Nat.mod_lt m (by decide)) (by omega))

/-- **Later days print as later texts.** -/
theorem isoDate_lt {d e : Int} (hd : FourDigits d) (he : FourDigits e) (h : d < e) :
    isoDate d < isoDate e := by
  rw [String.lt_iff, isoDate, isoDate, String.toList_ofList, String.toList_ofList]
  unfold FourDigits at hd he
  have hm := (monthOfDay_spec e).1
  have hdate := dateOfDay_spec d
  have hdate' := dateOfDay_spec e
  have hlength : ∀ w n m, (digits w n).length = (digits w m).length := by
    intro w n m
    rw [digits_length, digits_length]
  unfold dateChars
  rcases civil_lt h with hyear | ⟨hyear, hmonth | ⟨hmonth, hlt⟩⟩
  · exact lt_append (hlength _ _ _) (digits_lt (by omega) (by omega)) _ _
  · rw [hyear]
    apply List.append_left_lt
    rw [List.cons_lt_cons_iff]
    exact .inr ⟨rfl, lt_append (hlength _ _ _) (digits_lt (by omega) (by omega)) _ _⟩
  · rw [hyear, hmonth]
    apply List.append_left_lt
    rw [List.cons_lt_cons_iff]
    refine .inr ⟨rfl, ?_⟩
    apply List.append_left_lt
    rw [List.cons_lt_cons_iff]
    exact .inr ⟨rfl, digits_lt (by omega) (by omega)⟩

theorem isoDate_inj {d e : Int} (hd : FourDigits d) (he : FourDigits e)
    (h : isoDate d = isoDate e) : d = e := by
  rcases lt_trichotomy d e with hlt | heq | hlt
  · exact absurd (isoDate_lt hd he hlt) (h ▸ String.lt_irrefl _)
  · exact heq
  · exact absurd (isoDate_lt he hd hlt) (h ▸ String.lt_irrefl _)

/-- The UTC day on which a payment was created. -/
def utcDay (p : StoredPayment) : Int := p.createdAt.ms / msPerDay

theorem takeUnits_take {n : Nat} {cs : List Char} (h : ∀ c ∈ cs.take n, c.val < 0x10000) :
    JavaScript.takeUnits n cs = cs.take n := by
  induction cs generalizing n with
  | nil => cases n <;> rfl
  | cons c cs ih =>
      cases n with
      | zero =>
          unfold JavaScript.takeUnits
          dsimp only
          rw [if_neg (by split <;> decide)]
          rfl
      | succ n =>
          obtain ⟨hc, hcs⟩ := List.forall_mem_cons.mp h
          unfold JavaScript.takeUnits
          dsimp only
          rw [if_pos hc, if_pos (by omega), Nat.add_sub_cancel, ih hcs]
          rfl

theorem dateChars_small (day : Int) : ∀ c ∈ dateChars day, c.val < 0x10000 := by
  have hdigits : ∀ w n, ∀ c ∈ digits w n, c.val < 0x10000 := by
    intro w n c hc
    have hle : c.val ≤ 57 := (Char.isDigit_iff_toNat.mp (digits_isDigit c hc)).2
    exact UInt32.lt_of_le_of_lt hle (by decide)
  intro c hc
  rcases List.mem_append.mp hc with hc | hc
  · exact hdigits _ _ c hc
  · rcases List.mem_cons.mp hc with rfl | hc
    · decide
    · rcases List.mem_append.mp hc with hc | hc
      · exact hdigits _ _ c hc
      · rcases List.mem_cons.mp hc with rfl | hc
        · decide
        · exact hdigits _ _ c hc

/-- **The key of a payment is its UTC day.** -/
theorem dayOf_eq {p : StoredPayment} (h : FourDigits (utcDay p)) :
    merchants.dayOf p = isoDate (utcDay p) := by
  have hsplit : ∃ rest, isoChars p.createdAt = dateChars (utcDay p) ++ rest := by
    have hyear : isoYear (yearOfDay (utcDay p)) = digits 4 (yearOfDay (utcDay p)).toNat := if_pos h
    show ∃ rest, isoYear (yearOfDay (utcDay p)) ++ isoTail (utcDay p) _ = _
    rw [hyear]
    unfold isoTail dateChars
    exact ⟨_, by simp only [List.append_assoc, List.cons_append]; rfl⟩
  obtain ⟨rest, hrest⟩ := hsplit
  have hlength : (dateChars (utcDay p)).length = 10 := by simp [dateChars]
  have htake : (isoChars p.createdAt).take 10 = dateChars (utcDay p) := by
    rw [hrest]
    exact List.take_left' hlength
  unfold merchants.dayOf JavaScript.sliceTo Instant.toISOString
  rw [String.toList_ofList, takeUnits_take, htake]
  · rfl
  · rw [htake]
    exact dateChars_small _

/-! ## §2. Amounts. -/

/-- The number that the route adds for a payment. -/
def exactAmount (p : StoredPayment) : Decimal :=
  match merchants.amountOf p with
  | .finite n => n
  | _ => 0

/-- **An accepted amount is added as the fraction it writes.** -/
theorem amountOf_accepted {p : StoredPayment} (h : test amountRegex p.amount) :
    merchants.amountOf p = .finite (exactAmount p)
      ∧ (exactAmount p).value = amountValue p.amount := by
  obtain ⟨n, -, hread, hvalue, -⟩ := accepted_read h
  have hne : p.amount ≠ "" := by
    intro hempty
    rw [hempty] at h
    exact absurd h (by decide)
  have hamount : merchants.amountOf p = .finite n := by
    unfold merchants.amountOf
    rw [if_neg hne, hread]
  unfold exactAmount
  rw [hamount]
  exact ⟨rfl, hvalue⟩

/-- **The total of the statistics**, by induction on the payments. -/
theorem stats_total {payments : List StoredPayment}
    (h : ∀ p ∈ payments, test amountRegex p.amount) : ∃ total : Decimal,
      merchants.stats.revenue payments = .finite total
        ∧ total.value = (payments.map (fun p => amountValue p.amount)).sum := by
  induction payments using List.reverseRecOn with
  | nil => exact ⟨0, rfl, Decimal.value_zero⟩
  | append_singleton payments p ih =>
      obtain ⟨total, htotal, hvalue⟩ := ih (fun q hq => h q (List.mem_append_left _ hq))
      obtain ⟨hamount, hp⟩ :=
        amountOf_accepted (h p (List.mem_append_right _ (List.mem_singleton_self p)))
      refine ⟨total + exactAmount p, ?_, ?_⟩
      · unfold merchants.stats.revenue at htotal ⊢
        rw [List.foldl_append, htotal, List.foldl_cons, hamount]
        rfl
      · rw [Decimal.value_add, hvalue, hp, List.map_append, List.sum_append]
        simp

/-! ## §3. Entries. -/

/-- The entries before they are printed: by day, with exact sums. -/
def dailySums (payments : List StoredPayment) : List (Int × Decimal) :=
  Grouping.group utcDay exactAmount payments

section Entries

variable {payments : List StoredPayment}

/-- **The `Map` of the route** holds them. -/
theorem buckets_eq (hyears : ∀ p ∈ payments, FourDigits (utcDay p))
    (hamounts : ∀ p ∈ payments, test amountRegex p.amount) :
    merchants.revenue.buckets payments
      = (dailySums payments).map (fun e => (isoDate e.1, .finite e.2)) := by
  have hread : merchants.revenue.buckets payments
      = Grouping.group (fun p => isoDate (utcDay p)) (fun p => Numeric.finite (exactAmount p))
          payments :=
    Grouping.group_congr
      (fun p hp => ⟨dayOf_eq (hyears p hp), (amountOf_accepted (hamounts p hp)).1⟩)
  rw [hread, Grouping.group_map_keys (fun p hp q hq => isoDate_inj (hyears p hp) (hyears q hq)),
    Grouping.map_group rfl (fun _ _ => rfl), List.map_map]
  rfl

/-- Their values. -/
theorem dailySums_values (hamounts : ∀ p ∈ payments, test amountRegex p.amount) :
    (dailySums payments).map (fun e => (e.1, e.2.value))
      = Grouping.group utcDay (fun p => amountValue p.amount) payments := by
  unfold dailySums
  rw [← Grouping.map_group Decimal.value_zero Decimal.value_add]
  exact Grouping.group_congr (fun p hp => ⟨rfl, (amountOf_accepted (hamounts p hp)).2⟩)

/-- **The entries partition the payments**: there is one for exactly each UTC
day with a payment, in increasing order; it holds the sum of the day's amounts,
and the entries add up to all amounts. -/
structure Partitions (payments : List StoredPayment) (entries : List (Int × Decimal)) :
    Prop where
  increasing : (entries.map Prod.fst).Pairwise (· < ·)
  days : ∀ day, day ∈ entries.map Prod.fst ↔ ∃ p ∈ payments, utcDay p = day
  sums : ∀ e ∈ entries, e.2.value
    = ((payments.filter (fun p => utcDay p = e.1)).map (fun p => amountValue p.amount)).sum
  total : (entries.map (fun e => e.2.value)).sum
    = (payments.map (fun p => amountValue p.amount)).sum

theorem dailySums_partitions (hordered : merchants.Ascending payments)
    (hamounts : ∀ p ∈ payments, test amountRegex p.amount) :
    Partitions payments (dailySums payments) where
  increasing := by
    refine Grouping.keys_group_pairwise (hordered.imp (fun {p q} hle => ?_))
    have hle : p.createdAt.ms ≤ q.createdAt.ms := hle
    exact (Int.lt_or_eq_of_le (Int.ediv_le_ediv (by decide) hle)).symm
  days _ := Grouping.mem_keys_group
  sums e he := by
    have hentry : (e.1, e.2.value)
        ∈ Grouping.group utcDay (fun p => amountValue p.amount) payments := by
      rw [← dailySums_values hamounts]
      exact List.mem_map_of_mem he
    exact (Grouping.mem_group.mp hentry).2
  total := by
    have hsum : ((Grouping.group utcDay (fun p => amountValue p.amount) payments).map
        Prod.snd).sum = (payments.map (fun p => amountValue p.amount)).sum :=
      Grouping.sum_group payments
    rw [← dailySums_values hamounts, List.map_map] at hsum
    exact hsum

/-- The order of the payments does not matter to it. -/
theorem Partitions.of_perm {rows : List StoredPayment} {entries : List (Int × Decimal)}
    (h : Partitions payments entries) (hperm : payments.Perm rows) : Partitions rows entries where
  increasing := h.increasing
  days day := by
    rw [h.days day]
    exact exists_congr (fun p => and_congr_left (fun _ => hperm.mem_iff))
  sums e he := by
    rw [h.sums e he]
    exact ((hperm.filter _).map _).sum_eq
  total := by
    rw [h.total]
    exact (hperm.map _).sum_eq

end Entries

/-- **Revenue buckets partition the payments**; their dates increase as texts
too, and they add up to the total of the statistics. -/
theorem revenue_partitions {payments : List StoredPayment}
    (hordered : merchants.Ascending payments)
    (hyears : ∀ p ∈ payments, FourDigits (utcDay p))
    (hamounts : ∀ p ∈ payments, test amountRegex p.amount) :
    ∃ entries : List (Int × Decimal),
      merchants.revenue.buckets payments = entries.map (fun e => (isoDate e.1, .finite e.2))
      ∧ Partitions payments entries
      ∧ ((merchants.revenue.buckets payments).map Prod.fst).Pairwise (· < ·)
      ∧ ∃ total : Decimal, merchants.stats.revenue payments = .finite total
          ∧ total.value = (entries.map (fun e => e.2.value)).sum := by
  have hbuckets := buckets_eq hyears hamounts
  have hpartition := dailySums_partitions hordered hamounts
  refine ⟨dailySums payments, hbuckets, hpartition, ?_, ?_⟩
  · have hyear : ∀ e ∈ dailySums payments, FourDigits e.1 := by
      intro e he
      obtain ⟨p, hp, heq⟩ := (hpartition.days e.1).mp (List.mem_map_of_mem he)
      rw [← heq]
      exact hyears p hp
    have hdays := hpartition.increasing
    rw [List.pairwise_map] at hdays
    rw [hbuckets, List.map_map, List.pairwise_map]
    exact hdays.imp_of_mem (fun he he' hlt => isoDate_lt (hyear _ he) (hyear _ he') hlt)
  · rw [hpartition.total]
    exact stats_total hamounts

/-- **Over the table**: whatever rows Prisma answers with, in ascending order,
the entries partition the rows that count. -/
theorem revenue_of_table {subscriptions : List Subscription} {planIds : List String}
    {since : Instant} {rows payments : List StoredPayment}
    (hanswers :
      merchants.Answers (merchants.counts subscriptions planIds (some since)) rows payments)
    (hordered : merchants.Ascending payments)
    (hyears : ∀ p ∈ rows, FourDigits (utcDay p))
    (hamounts : ∀ p ∈ rows, test amountRegex p.amount) :
    ∃ entries : List (Int × Decimal),
      merchants.revenue.buckets payments = entries.map (fun e => (isoDate e.1, .finite e.2))
      ∧ Partitions (rows.filter (merchants.counts subscriptions planIds (some since))) entries := by
  have hrows : ∀ p ∈ payments, p ∈ rows := fun p hp =>
    List.mem_of_mem_filter (hanswers.mem_iff.mp hp)
  exact ⟨dailySums payments,
    buckets_eq (fun p hp => hyears p (hrows p hp)) (fun p hp => hamounts p (hrows p hp)),
    (dailySums_partitions hordered (fun p hp => hamounts p (hrows p hp))).of_perm hanswers⟩

/-- **The reply** lists the entries, rounded to two decimals. -/
theorem revenue_reply {planIds : List String} {payments : List StoredPayment}
    (hplans : planIds ≠ []) (hordered : merchants.Ascending payments)
    (hyears : ∀ p ∈ payments, FourDigits (utcDay p))
    (hamounts : ∀ p ∈ payments, test amountRegex p.amount) :
    ∃ entries : List (Int × Decimal),
      merchants.revenue planIds payments
          = entries.map (fun e => (isoDate e.1, JavaScript.toFixed 2 (.finite e.2)))
        ∧ Partitions payments entries := by
  refine ⟨dailySums payments, ?_, dailySums_partitions hordered hamounts⟩
  rw [merchants.revenue, if_neg hplans, buckets_eq hyears hamounts, List.map_map]
  rfl

/-- A payment of an hour of 1970. -/
def paidAt (amount : String) (hour : Fin 100) : StoredPayment :=
  { id := amount
    subscriptionId := "sub"
    amount
    status := .SUCCESS
    idempotencyKey := amount
    billingPeriodStart := ⟨0, by decide⟩
    billingPeriodEnd := ⟨0, by decide⟩
    createdAt := ⟨hour * 3600000, by have := hour.isLt; unfold maxTimeMs; omega⟩ }

theorem revenue_partitions_two_days : ∃ entries : List (Int × Decimal),
    merchants.revenue.buckets [paidAt "1.5" 1, paidAt "2" 23, paidAt "0.25" 24]
        = entries.map (fun e => (isoDate e.1, .finite e.2))
      ∧ Partitions [paidAt "1.5" 1, paidAt "2" 23, paidAt "0.25" 24] entries := by
  have hordered : merchants.Ascending [paidAt "1.5" 1, paidAt "2" 23, paidAt "0.25" 24] := by
    unfold merchants.Ascending
    decide
  have hyears : ∀ p ∈ [paidAt "1.5" 1, paidAt "2" 23, paidAt "0.25" 24],
      FourDigits (utcDay p) := by
    unfold FourDigits
    decide +kernel
  have hamounts : ∀ p ∈ [paidAt "1.5" 1, paidAt "2" 23, paidAt "0.25" 24],
      test amountRegex p.amount := by
    decide +kernel
  obtain ⟨entries, hbuckets, hpartition, -⟩ := revenue_partitions hordered hyears hamounts
  exact ⟨entries, hbuckets, hpartition⟩

end Sorobill
