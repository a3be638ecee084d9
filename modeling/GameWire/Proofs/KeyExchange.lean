import GameWire.KeyExchange
import GameWire.Proofs.Cipher.SessionCipher
import GameWire.Proofs.Rsa.Recovery

/-!
# Sessions agreed on

A request that one side closes is opened by the other side to the same secret and the same session,
if the keys match and both sides make their ciphers the same way.
-/

namespace GameWire

theorem Session.establish_eq_ok {factory : CipherFactory} {secret : Bytes} {s : Session}
    (h : Session.establish factory secret = .ok s) :
    s.secret = secret ∧ secret ≠ [] ∧ factory secret = .ok s.cipher := by
  cases secret with
  | nil => cases h
  | cons b bs =>
    unfold Session.establish at h
    cases hf : factory (b :: bs) with
    | error e => rw [hf] at h; cases h
    | ok cipher =>
      rw [hf] at h
      cases h
      exact ⟨rfl, List.cons_ne_nil b bs, rfl⟩

/-- Every secret but the empty one begins a session with the ciphers that come with the library. -/
theorem Session.exists_establish {secret : Bytes} (suite : CipherSuite) (hne : secret ≠ []) :
    ∃ s, Session.establish suite.establish secret = .ok s := by
  obtain ⟨b, bs, rfl⟩ := List.exists_cons_of_ne_nil hne
  exact ⟨_, rfl⟩

/-- The cipher of a session is one that comes with the library. -/
def Session.BuiltIn (s : Session) : Prop :=
  ∃ suite : CipherSuite, Session.establish suite.establish s.secret = .ok s

namespace Session

variable {s : Session}

theorem builtIn_of_establish {suite : CipherSuite} {secret : Bytes}
    (h : establish suite.establish secret = .ok s) : s.BuiltIn :=
  ⟨suite, by rw [(establish_eq_ok h).1]; exact h⟩

theorem BuiltIn.secret_ne_nil (h : s.BuiltIn) : s.secret ≠ [] := by
  obtain ⟨suite, he⟩ := h
  exact (establish_eq_ok he).2.1

theorem BuiltIn.lawful (h : s.BuiltIn) : s.cipher.Lawful := by
  obtain ⟨suite, he⟩ := h
  exact (CipherSuite.establish_eq_ok (establish_eq_ok he).2.2).2

theorem BuiltIn.within (h : s.BuiltIn) :
    s.cipher.maxOverhead ≤ mostOverhead ∧
      ∀ front, s.cipher.sealedLength? front = none → front.length < mostOverhead := by
  obtain ⟨suite, he⟩ := h
  exact CipherSuite.establish_within (establish_eq_ok he).2.2

theorem BuiltIn.maxOverhead_le_minSealedLength (h : s.BuiltIn) :
    s.cipher.maxOverhead ≤ s.cipher.minSealedLength := by
  obtain ⟨suite, he⟩ := h
  exact CipherSuite.maxOverhead_le_minSealedLength (establish_eq_ok he).2.2

/-- Where there are no bytes, no envelope announces its length. -/
theorem BuiltIn.sealedLength?_nil (h : s.BuiltIn) : s.cipher.sealedLength? [] = none := by
  obtain ⟨suite, he⟩ := h
  obtain ⟨-, hne, hcipher⟩ := establish_eq_ok he
  exact CipherSuite.sealedLength?_nil hcipher

end Session

namespace ExchangeKeys

variable {k : ExchangeKeys} {request opened closed : EncryptionRequest} {s : Session}

/-- An opened request holds the secret of its session. -/
theorem openRequest_eq_ok {key : Rsa.PrivateKey} :
    k.openRequest key request = .ok (opened, s) ↔
      ∃ secret, key.recover request.rsaData = .ok secret ∧
        Session.establish k.factory secret = .ok s ∧ opened = { rsaData := secret } := by
  unfold openRequest
  cases key.recover request.rsaData with
  | error e => simp [bind, Except.bind]
  | ok secret =>
    cases hs : Session.establish k.factory secret with
    | error e => simp [bind, Except.bind, hs]
    | ok s' => simp [bind, Except.bind, hs, pure, Except.pure, and_comm, eq_comm]

/-- A closed request holds the secret of its session, concealed. -/
theorem closeRequest_eq_ok {key : Rsa.PublicKey} {entropy : Entropy} :
    k.closeRequest key entropy request = .ok (closed, s) ↔
      ∃ ciphertext, Session.establish k.factory request.rsaData = .ok s ∧
        key.conceal entropy request.rsaData = .ok ciphertext ∧
          closed = { rsaData := ciphertext } := by
  unfold closeRequest
  cases Session.establish k.factory request.rsaData with
  | error e => simp [bind, Except.bind]
  | ok s' =>
    cases key.conceal entropy request.rsaData with
    | error e => simp [bind, Except.bind]
    | ok ciphertext => simp [bind, Except.bind, pure, Except.pure, and_comm, eq_comm]

theorem acceptRequest_of_none (h : k.decryptKey? = none) :
    k.acceptRequest request = (.ok none, []) := by
  unfold acceptRequest
  rw [h]

theorem acceptRequest_of_some {key : Rsa.PrivateKey} (h : k.decryptKey? = some key) :
    k.acceptRequest request =
      ((k.openRequest key request).map some, report (k.openRequest key request)) := by
  unfold acceptRequest
  rw [h]

theorem sealRequest_of_none {entropy : Entropy} (h : k.encryptKey? = none) :
    k.sealRequest entropy request = (.ok none, []) := by
  unfold sealRequest
  rw [h]

theorem sealRequest_of_some {key : Rsa.PublicKey} {entropy : Entropy}
    (h : k.encryptKey? = some key) :
    k.sealRequest entropy request =
      ((k.closeRequest key entropy request).map some,
        report (k.closeRequest key entropy request)) := by
  unfold sealRequest
  rw [h]

/-- What one side closed, the other side opens. -/
theorem openRequest_closeRequest {k' : ExchangeKeys} {pub : Rsa.PublicKey} {priv : Rsa.PrivateKey}
    (hkeys : Rsa.Matching pub priv) (hfactory : k'.factory = k.factory) {entropy : Entropy}
    (h : k.closeRequest pub entropy request = .ok (closed, s)) :
    k'.openRequest priv closed = .ok (request, s) := by
  obtain ⟨ciphertext, hs, hc, rfl⟩ := closeRequest_eq_ok.1 h
  rw [openRequest_eq_ok, hfactory]
  exact ⟨request.rsaData, Rsa.recover_conceal hkeys hc, hs, rfl⟩

end ExchangeKeys

end GameWire
