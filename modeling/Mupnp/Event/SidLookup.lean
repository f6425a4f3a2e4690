import Mupnp.Event.ServiceNotify

/-!
# Looking up subscribers

The lookup of a subscriber for the `SID` header of a request: `mupnp_event_subscription_getsid`
takes the text behind the first colon of the header, and `mupnp_service_getsubscriberbysid`
compares it with the SIDs of the subscribers, after skipping five characters of each string in
which `uuid` occurs. Reading a string behind its terminator has no result here.

`sid_lookup_iff` says when the lookup returns exactly the subscriber whose SID is that of the
header, up to a prefix `uuid:` on either side; `notMisread_of_usual` that this is so when `uuid`
and colons stand in prefixes only.
-/

set_option autoImplicit false
set_option relaxedAutoImplicit false

namespace Mupnp.Event

open Util

/-! ### The lookup -/

/-- Where `mupnp_service_getsubscriberbysid` reads a string from: its sixth character when `uuid`
occurs in it. A string without a sixth position is left. -/
def skipUuid (sid : CString) : Option CString :=
  if 0 ≤ strstr (some sid) (some "uuid".toList) then
    if 5 ≤ sid.length then some (sid.drop 5) else none
  else some sid

/-- The loop of `mupnp_service_getsubscriberbysid`: nothing when it reads behind a terminator. -/
def findSubscriber (sid : Option CString) : List Subscriber → Option (Option Subscriber)
  | [] => some none
  | sub :: rest =>
    match sub.sid with
    | none => findSubscriber sid rest
    | some subSid =>
      sid.bind fun read ↦ (skipUuid subSid).bind fun subRead ↦
        if streq (some read) (some subRead) then some (some sub) else findSubscriber sid rest

/-- `mupnp_service_getsubscriberbysid`. -/
def serviceGetSubscriberBySid (subscribers : List Subscriber) (sid : Option CString) :
    Option (Option Subscriber) :=
  if strlen sid ≤ 0 then some none else findSubscriber (sid.bind skipUuid) subscribers

/-- The lookup for the header of a renewal, an `UNSUBSCRIBE` or a `NOTIFY`. -/
def lookupSubscriber (subscribers : List Subscriber) (headerValue : CString) :
    Option (Option Subscriber) :=
  serviceGetSubscriberBySid subscribers (subscriptionGetSid (some headerValue))

/-! ### What it is for -/

/-- A SID without its prefix, if it has one. -/
def bareSid (sid : CString) : CString :=
  if "uuid:".toList.isPrefixOf sid then sid.drop 5 else sid

/-- The SID of a subscriber is the one in a header, up to a prefix on either side. -/
def HasSid (sub : Subscriber) (headerValue : CString) : Prop :=
  ∃ sid, sub.sid = some sid ∧ bareSid sid = bareSid headerValue

/-- The SIDs of subscribers are different, up to prefixes. -/
def DistinctSids (subscribers : List Subscriber) : Prop :=
  subscribers.Pairwise fun sub other ↦ ∀ sid, sub.sid = some sid → ¬ HasSid other sid

/-- The result of a lookup that read no string behind its terminator is exactly the subscriber with
the SID. -/
def FoundRight (result : Option (Option Subscriber)) (subscribers : List Subscriber)
    (headerValue : CString) : Prop :=
  ∃ found, result = some found ∧
    ∀ sub, found = some sub ↔ sub ∈ subscribers ∧ HasSid sub headerValue

/-- The lookup returns exactly the subscriber with the SID of the header. -/
def LookupCorrect (subscribers : List Subscriber) (headerValue : CString) : Prop :=
  FoundRight (lookupSubscriber subscribers headerValue) subscribers headerValue

/-- The text behind the first colon of a header, or the whole header. -/
def headerSid (headerValue : CString) : CString :=
  (subscriptionGetSid (some headerValue)).getD []

/-- A SID is read right: neither it nor what is left of the header is `uuid`, and dropping five
characters where `uuid` occurs makes them equal exactly when dropping the prefixes does. -/
def ReadRight (headerValue sid : CString) : Prop :=
  headerSid headerValue ≠ "uuid".toList ∧ sid ≠ "uuid".toList ∧
    (withoutUuid sid = withoutUuid (headerSid headerValue) ↔ bareSid sid = bareSid headerValue)

/-- The SIDs are read right up to the one of the header. -/
def AllReadRight (headerValue : CString) (subscribers : List Subscriber) : Prop :=
  ∀ before sub after, subscribers = before ++ sub :: after →
    (∀ earlier ∈ before, ¬ HasSid earlier headerValue) →
      ∀ sid, sub.sid = some sid → ReadRight headerValue sid

/-- The header and the SIDs are not misread: when something is left of the header, the SIDs up to
the one of the header are read right; otherwise no SID is the one of the header. -/
def NotMisread (subscribers : List Subscriber) (headerValue : CString) : Prop :=
  if headerSid headerValue = [] then ∀ sub ∈ subscribers, ¬ HasSid sub headerValue
  else AllReadRight headerValue subscribers

/-! ### Skipping the prefix -/

/-- The only string that is read behind its terminator is `uuid`. -/
theorem skipUuid_eq (sid : CString) :
    skipUuid sid = if sid = "uuid".toList then none else some (withoutUuid sid) := by
  unfold skipUuid withoutUuid
  by_cases hcontains : 0 ≤ strstr (some sid) (some "uuid".toList)
  · have hwithin := strstr_nonneg_iff.mp hcontains
    have hlength : 4 ≤ sid.length := hwithin.length_le
    rw [if_pos hcontains, if_pos hcontains]
    by_cases huuid : sid = "uuid".toList
    · rw [if_pos huuid, huuid]
      rfl
    · have hne : sid.length ≠ 4 := fun heq ↦ huuid (hwithin.eq_of_length heq.symm).symm
      rw [if_neg huuid, if_pos (by omega)]
  · rw [if_neg hcontains, if_neg hcontains, if_neg]
    rintro rfl
    exact hcontains (by decide)

theorem skipUuid_of_ne {sid : CString} (h : sid ≠ "uuid".toList) :
    skipUuid sid = some (withoutUuid sid) := by rw [skipUuid_eq, if_neg h]

/-! ### The loop -/

section loop

variable {headerValue : CString} {sub : Subscriber} {rest : List Subscriber}

theorem allReadRight_cons :
    AllReadRight headerValue (sub :: rest) ↔
      (∀ sid, sub.sid = some sid → ReadRight headerValue sid) ∧
        (¬ HasSid sub headerValue → AllReadRight headerValue rest) := by
  constructor
  · intro h
    refine ⟨h [] sub rest rfl (by simp), ?_⟩
    intro hsub before other after hrest hbefore
    refine h (sub :: before) other after (by rw [hrest, List.cons_append]) ?_
    intro earlier hearlier
    rcases List.mem_cons.mp hearlier with rfl | hearlier
    · exact hsub
    · exact hbefore earlier hearlier
  · rintro ⟨hfirst, hrest⟩ before other after heq hbefore
    cases before with
    | nil =>
      obtain ⟨rfl, -⟩ := List.cons.inj heq
      exact hfirst
    | cons earlier before =>
      obtain ⟨rfl, hafter⟩ := List.cons.inj heq
      have hsub := hbefore sub List.mem_cons_self
      exact hrest hsub before other after hafter
        fun earlier hearlier ↦ hbefore earlier (List.mem_cons_of_mem _ hearlier)

theorem mem_of_findSubscriber {read : Option CString} {subscribers : List Subscriber}
    {found : Subscriber} (h : findSubscriber read subscribers = some (some found)) :
    found ∈ subscribers := by
  induction subscribers with
  | nil => cases h
  | cons sub rest ih =>
    rw [findSubscriber] at h
    split at h
    · exact List.mem_cons_of_mem _ (ih h)
    · obtain ⟨key, -, hkey⟩ := Option.bind_eq_some_iff.mp h
      obtain ⟨stored, -, hstored⟩ := Option.bind_eq_some_iff.mp hkey
      split at hstored
      · obtain rfl := Option.some.inj (Option.some.inj hstored)
        exact List.mem_cons_self
      · exact List.mem_cons_of_mem _ (ih hstored)

/-- A subscriber without the SID of the header changes nothing in what is right to find. -/
theorem foundRight_cons (h : ¬ HasSid sub headerValue) (result : Option (Option Subscriber)) :
    FoundRight result (sub :: rest) headerValue ↔ FoundRight result rest headerValue := by
  have hmem : ∀ other, (other ∈ sub :: rest ∧ HasSid other headerValue) ↔
      other ∈ rest ∧ HasSid other headerValue := by
    intro other
    constructor
    · rintro ⟨hother, hhas⟩
      rcases List.mem_cons.mp hother with rfl | hother
      · exact absurd hhas h
      · exact ⟨hother, hhas⟩
    · rintro ⟨hother, hhas⟩
      exact ⟨List.mem_cons_of_mem _ hother, hhas⟩
  unfold FoundRight
  simp only [hmem]

/-- Returning the first subscriber is right when it has the SID of the header. -/
theorem foundRight_cons_self_iff (h : DistinctSids (sub :: rest)) :
    FoundRight (some (some sub)) (sub :: rest) headerValue ↔ HasSid sub headerValue := by
  obtain ⟨hfirst, -⟩ := List.pairwise_cons.mp h
  constructor
  · rintro ⟨found, hfound, hall⟩
    exact ((hall sub).mp (Option.some.inj hfound).symm).2
  · rintro ⟨sid, hsid, hbare⟩
    refine ⟨some sub, rfl, fun other ↦ ⟨?_, ?_⟩⟩
    · rintro ⟨⟩
      exact ⟨List.mem_cons_self, sid, hsid, hbare⟩
    · rintro ⟨hother, otherSid, hotherSid, hotherBare⟩
      rcases List.mem_cons.mp hother with rfl | hother
      · rfl
      · exact absurd ⟨otherSid, hotherSid, hotherBare.trans hbare.symm⟩
          (hfirst other hother sid hsid)

/-- Going on behind the first subscriber is right when it does not have the SID of the header. -/
theorem foundRight_cons_later_iff {read : Option CString} (h : DistinctSids (sub :: rest)) :
    FoundRight (findSubscriber read rest) (sub :: rest) headerValue ↔
      ¬ HasSid sub headerValue ∧ FoundRight (findSubscriber read rest) rest headerValue := by
  obtain ⟨hfirst, -⟩ := List.pairwise_cons.mp h
  constructor
  · intro hright
    have hsub : ¬ HasSid sub headerValue := by
      intro hsub
      obtain ⟨found, hfound, hall⟩ := hright
      have hthis := (hall sub).mpr ⟨List.mem_cons_self, hsub⟩
      obtain ⟨sid, hsid, -⟩ := hsub
      have hmem := mem_of_findSubscriber (hthis ▸ hfound)
      exact hfirst sub hmem sid hsid ⟨sid, hsid, rfl⟩
    exact ⟨hsub, (foundRight_cons hsub _).mp hright⟩
  · rintro ⟨hsub, hright⟩
    exact (foundRight_cons hsub _).mpr hright

theorem hasSid_iff {sid : CString} (h : sub.sid = some sid) :
    HasSid sub headerValue ↔ bareSid sid = bareSid headerValue := by
  simp only [HasSid, h, Option.some.injEq, exists_eq_left']

/-- One round of the loop: a subscriber with a SID. -/
theorem findSubscriber_cons {sid : CString} (h : sub.sid = some sid) (hsid : sid ≠ "uuid".toList)
    {header : CString} (hheader : header ≠ "uuid".toList) :
    findSubscriber (skipUuid header) (sub :: rest) =
      if withoutUuid sid = withoutUuid header then some (some sub)
      else findSubscriber (skipUuid header) rest := by
  rw [findSubscriber, h]
  simp only [skipUuid_of_ne hsid, skipUuid_of_ne hheader, Option.bind_some, streq_some_some]
  by_cases heq : withoutUuid sid = withoutUuid header
  · rw [if_pos heq.symm, if_pos heq]
  · rw [if_neg fun h ↦ heq h.symm, if_neg heq]

/-- A comparison with a string that is read behind its terminator. -/
theorem findSubscriber_cons_eq_none {sid header : CString} (h : sub.sid = some sid)
    (huuid : header = "uuid".toList ∨ sid = "uuid".toList) :
    findSubscriber (skipUuid header) (sub :: rest) = none := by
  rw [findSubscriber, h]
  rcases huuid with rfl | rfl
  · rw [skipUuid_eq, if_pos rfl]
    rfl
  · simp only [skipUuid_eq "uuid".toList, if_pos, Option.bind_none, Option.bind_fun_none]

/-- What the loop returns is right when the SIDs are read right. -/
theorem foundRight_findSubscriber_iff {subscribers : List Subscriber}
    (h : DistinctSids subscribers) :
    FoundRight (findSubscriber (skipUuid (headerSid headerValue)) subscribers) subscribers
        headerValue ↔ AllReadRight headerValue subscribers := by
  induction subscribers with
  | nil =>
    refine iff_of_true ⟨none, rfl, fun sub ↦ ?_⟩ ?_
    · simp
    · intro before sub after heq
      exact absurd heq.symm (List.append_ne_nil_of_right_ne_nil _ (List.cons_ne_nil _ _))
  | cons sub rest ih =>
    obtain ⟨-, hrest⟩ := List.pairwise_cons.mp h
    rw [allReadRight_cons, ← ih hrest]
    cases hsid : sub.sid with
    | none =>
      have hsub : ¬ HasSid sub headerValue := by
        rintro ⟨sid, hsome, -⟩
        cases hsid.symm.trans hsome
      have hnext : findSubscriber (skipUuid (headerSid headerValue)) (sub :: rest) =
          findSubscriber (skipUuid (headerSid headerValue)) rest := by
        rw [findSubscriber, hsid]
      rw [hnext, foundRight_cons hsub]
      constructor
      · intro hright
        exact ⟨nofun, fun _ ↦ hright⟩
      · rintro ⟨-, hright⟩
        exact hright hsub
    | some sid =>
      simp only [Option.some.injEq, forall_eq']
      rw [ReadRight, ← hasSid_iff hsid]
      by_cases huuid : headerSid headerValue = "uuid".toList ∨ sid = "uuid".toList
      · rw [findSubscriber_cons_eq_none hsid huuid]
        refine iff_of_false ?_ ?_
        · rintro ⟨found, hfound, -⟩
          cases hfound
        · rintro ⟨⟨hheader, hstored, -⟩, -⟩
          exact huuid.elim hheader hstored
      · obtain ⟨hheader, hstored⟩ := not_or.mp huuid
        rw [findSubscriber_cons hsid hstored hheader]
        by_cases hsame : withoutUuid sid = withoutUuid (headerSid headerValue)
        · rw [if_pos hsame, foundRight_cons_self_iff h]
          constructor
          · intro hsub
            exact ⟨⟨hheader, hstored, iff_of_true hsame hsub⟩, fun hnot ↦ absurd hsub hnot⟩
          · rintro ⟨⟨-, -, hiff⟩, -⟩
            exact hiff.mp hsame
        · rw [if_neg hsame, foundRight_cons_later_iff h]
          constructor
          · rintro ⟨hsub, hright⟩
            exact ⟨⟨hheader, hstored, iff_of_false hsame hsub⟩, fun _ ↦ hright⟩
          · rintro ⟨⟨-, -, hiff⟩, hright⟩
            have hsub := mt hiff.mpr hsame
            exact ⟨hsub, hright hsub⟩

end loop

/-! ### SIDs of the usual shape -/

/-- The SIDs that are read right have `uuid` in the prefix only. -/
theorem withoutUuid_eq_bareSid {sid : CString}
    (h : "uuid".toList <:+: sid → "uuid:".toList <+: sid) : withoutUuid sid = bareSid sid := by
  unfold withoutUuid bareSid
  by_cases hstart : "uuid:".toList <+: sid
  · have hwithin : "uuid".toList <:+: sid := by
      have hshort : "uuid".toList <+: "uuid:".toList := by decide
      exact (hshort.trans hstart).isInfix
    rw [if_pos (strstr_nonneg_iff.mpr hwithin), if_pos (List.isPrefixOf_iff_prefix.mpr hstart)]
  · rw [if_neg fun hcontains ↦ hstart (h (strstr_nonneg_iff.mp hcontains)),
      if_neg fun hstart' ↦ hstart (List.isPrefixOf_iff_prefix.mp hstart')]

/-- A header without a colon behind its prefix is stripped of the prefix. -/
theorem headerSid_eq_bareSid {headerValue : CString} (h : ':' ∉ bareSid headerValue) :
    headerSid headerValue = bareSid headerValue := by
  unfold bareSid at h ⊢
  rw [headerSid]
  by_cases hstart : "uuid:".toList <+: headerValue
  · obtain ⟨rest, rfl⟩ := hstart
    have hget := @subscriptionGetSid_append "uuid".toList (by decide) rest
    have hpos : "uuid:".toList.isPrefixOf ("uuid:".toList ++ rest) = true :=
      List.isPrefixOf_iff_prefix.mpr (List.prefix_append _ _)
    rw [if_pos hpos]
    exact congrArg (fun sid ↦ sid.getD []) hget
  · have hneg := mt List.isPrefixOf_iff_prefix.mp hstart
    rw [if_neg hneg] at h ⊢
    rw [subscriptionGetSid_of_not_mem h, Option.getD_some]

/-- Nothing is misread when `uuid` and colons stand in prefixes only. -/
theorem notMisread_of_usual {subscribers : List Subscriber} {headerValue : CString}
    (hsids : ∀ sub ∈ subscribers, ∀ sid, sub.sid = some sid →
      ("uuid".toList <:+: sid → "uuid:".toList <+: sid))
    (hcolon : ':' ∉ bareSid headerValue) (huuid : ¬ "uuid".toList <:+: bareSid headerValue)
    (hne : bareSid headerValue ≠ []) : NotMisread subscribers headerValue := by
  have hheader := headerSid_eq_bareSid hcolon
  have hread : withoutUuid (bareSid headerValue) = bareSid headerValue := by
    unfold withoutUuid
    rw [if_neg (mt strstr_nonneg_iff.mp huuid)]
  unfold NotMisread
  rw [hheader, if_neg hne]
  intro before sub after heq _ sid hsid
  have hshape := hsids sub (by rw [heq]; simp) sid hsid
  refine ⟨?_, ?_, ?_⟩
  · rintro hbare
    rw [hheader] at hbare
    exact huuid (hbare ▸ List.infix_rfl)
  · rintro rfl
    exact absurd (hshape List.infix_rfl) (by decide)
  · rw [hheader, hread, withoutUuid_eq_bareSid hshape]

/-! ### The lookup is correct when nothing is misread -/

theorem subscriptionGetSid_some (headerValue : CString) :
    subscriptionGetSid (some headerValue) = some (headerSid headerValue) := rfl

/-- **Which lookups are correct.** For subscribers with different SIDs, the lookup for a header
reads no string behind its terminator and returns exactly the subscriber with the SID of the header
if and only if the header and the SIDs are not misread. -/
theorem sid_lookup_iff {subscribers : List Subscriber} (h : DistinctSids subscribers)
    (headerValue : CString) :
    LookupCorrect subscribers headerValue ↔ NotMisread subscribers headerValue := by
  unfold LookupCorrect lookupSubscriber NotMisread
  rw [subscriptionGetSid_some, serviceGetSubscriberBySid]
  by_cases hempty : headerSid headerValue = []
  · rw [if_pos hempty, if_pos (by simp [strlen, hempty])]
    constructor
    · rintro ⟨result, hresult, hall⟩ sub hmem hsub
      have hfound := (hall sub).mpr ⟨hmem, hsub⟩
      rw [← Option.some.inj hresult] at hfound
      cases hfound
    · intro hnone
      refine ⟨none, rfl, fun sub ↦ iff_of_false (by simp) ?_⟩
      rintro ⟨hmem, hsub⟩
      exact hnone sub hmem hsub
  · rw [if_neg hempty, if_neg (not_strlen_some_le_zero hempty), Option.bind_some]
    exact foundRight_findSubscriber_iff h

/-- A subscriber with a SID. -/
def subscriberWithSid (sid : String) : Subscriber :=
  { Subscriber.new 0 with sid := some sid.toList }

/-- The lookup for a header with one of two SIDs, one of them with a prefix. -/
theorem sid_lookup_iff_two :
    LookupCorrect [subscriberWithSid "uuid:1", subscriberWithSid "2"] "uuid:2".toList ↔
      NotMisread [subscriberWithSid "uuid:1", subscriberWithSid "2"] "uuid:2".toList := by
  refine sid_lookup_iff ?_ "uuid:2".toList
  refine List.pairwise_pair.mpr ?_
  rintro sid ⟨⟩ ⟨other, ⟨⟩, hbare⟩
  exact absurd hbare (by decide)

/-- For the header `uuid` the lookup reads behind the terminator of the header. -/
theorem not_sid_lookup :
    ¬ ∀ subscribers headerValue, DistinctSids subscribers →
      LookupCorrect subscribers headerValue := by
  intro hcorrect
  obtain ⟨found, hfound, -⟩ :=
    hcorrect [subscriberWithSid "1"] "uuid".toList (List.pairwise_singleton _ _)
  have hread : lookupSubscriber [subscriberWithSid "1"] "uuid".toList = none := by decide
  cases hread.symm.trans hfound

end Mupnp.Event
