/-
Module: Papaia.Proofs.NotificationConfig
Purpose: A configuration of the notifications that passed its check passes it again unchanged, and
  what holds of one that did.
Trusted boundary: none
Main exports: validateName_stands, checkRecipient_stands, checkConfig_stands, WellKept,
  checkConfig_wellKept
-/
import Mathlib.Data.List.Sublists
import Papaia.Data.Spelling
import Papaia.Lib.Lines
import Papaia.Lib.Traverse
import Papaia.Notifications.Config

namespace Papaia.Notifications

open Text Lines

variable {lib : Library}

/-! ### Values -/

theorem validateName_eq_ok {value name : String} :
    validateName value = .ok name ↔
      name = joinWith " " (words value) ∧ name ≠ "" ∧ name.length ≤ maxNameLength := by
  simp only [validateName]
  constructor
  · intro h
    split at h
    · cases h
    · next hname =>
        split at h
        · cases h
        · next hlength =>
            obtain rfl := Except.ok.inj h
            exact ⟨rfl, hname, Nat.not_lt.1 hlength⟩
  · rintro ⟨rfl, hname, hlength⟩
    rw [if_neg hname, if_neg (Nat.not_lt.2 hlength)]

/-- The words of a text with single blanks between them are its words. -/
theorem joinWith_words_joinWith (text : String) :
    joinWith " " (words (joinWith " " (words text))) = joinWith " " (words text) := by
  rw [words_joinWith]
  intro part hpart
  exact clean_of_mem_words hpart

theorem validateName_stands {value name : String} (h : validateName value = .ok name) :
    validateName name = .ok name := by
  obtain ⟨rfl, hname, hlength⟩ := validateName_eq_ok.1 h
  apply validateName_eq_ok.2
  exact ⟨(joinWith_words_joinWith value).symm, hname, hlength⟩

theorem validateWebhookUrl_eq_ok {value url : String} :
    validateWebhookUrl lib value = .ok url ↔ url = strip value ∧ urlProblem lib url = none := by
  simp only [validateWebhookUrl]
  cases hproblem : urlProblem lib (strip value) with
  | some problem =>
      constructor
      · intro h
        cases h
      · rintro ⟨rfl, hnone⟩
        rw [hproblem] at hnone
        cases hnone
  | none =>
      constructor
      · intro h
        obtain rfl := Except.ok.inj h
        exact ⟨rfl, hproblem⟩
      · rintro ⟨rfl, -⟩
        rfl

theorem validateWebhookUrl_stands {value url : String}
    (h : validateWebhookUrl lib value = .ok url) : validateWebhookUrl lib url = .ok url := by
  obtain ⟨rfl, hproblem⟩ := validateWebhookUrl_eq_ok.1 h
  apply validateWebhookUrl_eq_ok.2
  exact ⟨(strip_strip value).symm, hproblem⟩

theorem validateRecipient_stands {value address : String}
    (h : validateRecipient value = some address) : validateRecipient address = some address := by
  simp only [validateRecipient, Option.ite_none_right_eq_some, Option.some.injEq] at h ⊢
  obtain ⟨hplain, rfl⟩ := h
  rw [strip_strip]
  exact ⟨hplain, rfl⟩

theorem validateTarget_stands {kind : Kind} {value target : String}
    (h : validateTarget lib kind value = .ok target) :
    validateTarget lib kind target = .ok target := by
  cases kind with
  | webhook => exact validateWebhookUrl_stands h
  | email =>
      simp only [validateTarget] at h ⊢
      cases hvalue : validateRecipient value with
      | none =>
          rw [hvalue] at h
          cases h
      | some address =>
          rw [hvalue] at h
          obtain rfl := Except.ok.inj h
          rw [validateRecipient_stands hvalue]
          rfl

theorem mem_validateEvents {events : List Event} {event : Event} :
    event ∈ validateEvents events ↔ event ∈ events := by
  have hall : event ∈ catalogue := by cases event <;> decide
  simp [validateEvents, hall]

theorem validateEvents_stands (events : List Event) :
    validateEvents (validateEvents events) = validateEvents events := by
  apply List.filter_congr
  intro event _
  rw [Bool.eq_iff_iff, List.contains_iff_mem, List.contains_iff_mem]
  exact mem_validateEvents

/-! ### A recipient -/

theorem checkRecipient_eq_ok {r checked : Recipient} :
    checkRecipient lib r = .ok checked ↔
      matchesId r.id = true ∧ ∃ name target, validateName r.name = .ok name ∧
        validateTarget lib r.kind r.target = .ok target ∧
        checked = { r with name := name, target := target, events := validateEvents r.events } := by
  by_cases hid : matchesId r.id = true
  · cases hname : validateName r.name with
    | error problem => simp [checkRecipient, hid, hname, bind, Except.bind]
    | ok name =>
        cases htarget : validateTarget lib r.kind r.target with
        | error problem => simp [checkRecipient, hid, hname, htarget, bind, Except.bind]
        | ok target =>
            simp [checkRecipient, hid, hname, htarget, bind, Except.bind, pure, Except.pure,
              eq_comm]
  · simp [checkRecipient, hid, bind, Except.bind]

theorem checkRecipient_stands (r checked : Recipient) (h : checkRecipient lib r = .ok checked) :
    checkRecipient lib checked = .ok checked := by
  obtain ⟨hid, name, target, hname, htarget, rfl⟩ := checkRecipient_eq_ok.1 h
  apply checkRecipient_eq_ok.2
  exact ⟨hid, name, target, validateName_stands hname, validateTarget_stands htarget,
    by rw [validateEvents_stands]⟩

/-! ### The configuration -/

theorem checkConfig_eq_ok {config checked : NotificationsConfig} :
    checkConfig lib config = .ok checked ↔
      ∃ recipients, config.recipients.mapM (checkRecipient lib) = .ok recipients ∧
        configProblem lib recipients = none ∧ checked = { config with recipients := recipients } := by
  cases hrecipients : config.recipients.mapM (checkRecipient lib) with
  | error problem => simp [checkConfig, hrecipients, bind, Except.bind]
  | ok recipients =>
      cases hproblem : configProblem lib recipients with
      | some problem => simp [checkConfig, hrecipients, hproblem, bind, Except.bind]
      | none =>
          simp [checkConfig, hrecipients, hproblem, bind, Except.bind, pure, Except.pure, eq_comm]

theorem checkConfig_stands {config checked : NotificationsConfig}
    (h : checkConfig lib config = .ok checked) : checkConfig lib checked = .ok checked := by
  obtain ⟨recipients, hrecipients, hproblem, rfl⟩ := checkConfig_eq_ok.1 h
  apply checkConfig_eq_ok.2
  exact ⟨recipients, Traverse.mapM_settles checkRecipient_stands hrecipients, hproblem, rfl⟩

/-- What a configuration that is in force promises its readers. -/
structure WellKept (lib : Library) (config : NotificationsConfig) : Prop where
  few : config.recipients.length ≤ maxRecipients
  ids : (config.recipients.map Recipient.id).Nodup
  names : (config.recipients.map fun r => lib.casefold r.name).Nodup
  named : ∀ r ∈ config.recipients, r.name ≠ "" ∧ r.name.length ≤ maxNameLength ∧
    r.name = joinWith " " (words r.name)
  identified : ∀ r ∈ config.recipients, matchesId r.id = true
  reached : ∀ r ∈ config.recipients, validateTarget lib r.kind r.target = .ok r.target
  chosen : ∀ r ∈ config.recipients, r.events.Sublist catalogue

theorem configProblem_eq_none {recipients : List Recipient} :
    configProblem lib recipients = none ↔ recipients.length ≤ maxRecipients ∧
      (recipients.map Recipient.id).Nodup ∧ (recipients.map fun r => lib.casefold r.name).Nodup := by
  rw [configProblem]
  split
  next hmany => simp [Nat.not_le.2 hmany]
  next hfew =>
    split
    next hids =>
      split
      next hnames => simp [Nat.not_lt.1 hfew, hids, hnames]
      next hnames => simp [hnames]
    next hids => simp [hids]

theorem checkRecipient_of_stands {config : NotificationsConfig}
    (h : checkConfig lib config = .ok config) :
    ∀ r ∈ config.recipients, checkRecipient lib r = .ok r := by
  obtain ⟨recipients, hrecipients, -, hsame⟩ := checkConfig_eq_ok.1 h
  have hlist : config.recipients = recipients := congrArg NotificationsConfig.recipients hsame
  rw [← hlist] at hrecipients
  exact List.forall₂_same.1 (Traverse.mapM_eq_ok_iff.1 hrecipients)

theorem validateEvents_eq_self_iff {events : List Event} :
    validateEvents events = events ↔ events.Sublist catalogue := by
  constructor
  · intro h
    rw [← h]
    exact List.filter_sublist
  · intro h
    have hall : ∀ chosen ∈ catalogue.sublists, validateEvents chosen = chosen := by decide
    exact hall events (List.mem_sublists.2 h)

/-- A recipient that is in force is one a form could send back. -/
theorem checkRecipient_eq_self_iff {r : Recipient} :
    checkRecipient lib r = .ok r ↔
      matchesId r.id = true ∧ validateName r.name = .ok r.name ∧
        validateTarget lib r.kind r.target = .ok r.target ∧ r.events.Sublist catalogue := by
  rw [checkRecipient_eq_ok]
  constructor
  · rintro ⟨hid, name, target, hname, htarget, heq⟩
    obtain rfl : r.name = name := congrArg Recipient.name heq
    obtain rfl : r.target = target := congrArg Recipient.target heq
    have hevents : r.events = validateEvents r.events := congrArg Recipient.events heq
    exact ⟨hid, hname, htarget, validateEvents_eq_self_iff.1 hevents.symm⟩
  · rintro ⟨hid, hname, htarget, hevents⟩
    refine ⟨hid, r.name, r.target, hname, htarget, ?_⟩
    rw [validateEvents_eq_self_iff.2 hevents]

theorem validateName_eq_self_iff {name : String} :
    validateName name = .ok name ↔
      name ≠ "" ∧ name.length ≤ maxNameLength ∧ name = joinWith " " (words name) := by
  rw [validateName_eq_ok]
  exact ⟨fun h => ⟨h.2.1, h.2.2, h.1⟩, fun h => ⟨h.2.2, h.1, h.2.1⟩⟩

theorem stands_iff_wellKept {config : NotificationsConfig} :
    checkConfig lib config = .ok config ↔ WellKept lib config := by
  constructor
  · intro h
    have heach := checkRecipient_of_stands h
    obtain ⟨recipients, -, hproblem, hsame⟩ := checkConfig_eq_ok.1 h
    have hlist : config.recipients = recipients := congrArg NotificationsConfig.recipients hsame
    rw [← hlist] at hproblem
    obtain ⟨hfew, hids, hnames⟩ := configProblem_eq_none.1 hproblem
    constructor
    · exact hfew
    · exact hids
    · exact hnames
    · exact fun r hr => validateName_eq_self_iff.1 (checkRecipient_eq_self_iff.1 (heach r hr)).2.1
    · exact fun r hr => (checkRecipient_eq_self_iff.1 (heach r hr)).1
    · exact fun r hr => (checkRecipient_eq_self_iff.1 (heach r hr)).2.2.1
    · exact fun r hr => (checkRecipient_eq_self_iff.1 (heach r hr)).2.2.2
  · intro h
    have heach : ∀ r ∈ config.recipients, checkRecipient lib r = .ok r := by
      intro r hr
      apply checkRecipient_eq_self_iff.2
      exact ⟨h.identified r hr, validateName_eq_self_iff.2 (h.named r hr), h.reached r hr,
        h.chosen r hr⟩
    apply checkConfig_eq_ok.2
    refine ⟨config.recipients, ?_, configProblem_eq_none.2 ⟨h.few, h.ids, h.names⟩, rfl⟩
    exact Traverse.mapM_eq_ok_iff.2 (List.forall₂_same.2 heach)

/-- A configuration that passed its check passes it again unchanged, and those that do are the well
kept ones. -/
theorem checked_config_is_settled (lib : Library) (config checked : NotificationsConfig) :
    (checkConfig lib config = .ok checked →
      checkConfig lib checked = .ok checked ∧ WellKept lib checked) ∧
      (checkConfig lib config = .ok config ↔ WellKept lib config) := by
  refine ⟨?_, stands_iff_wellKept⟩
  intro h
  have hstands := checkConfig_stands h
  exact ⟨hstands, stands_iff_wellKept.1 hstands⟩

end Papaia.Notifications
