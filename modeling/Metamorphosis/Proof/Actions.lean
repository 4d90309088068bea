import Metamorphosis.Construction.Cluster

/-!
What every action of the cluster needs and what it runs. The proofs about steps split the actions here.
-/

namespace Metamorphosis
variable {n : Nat} {S : Service n}

namespace Cluster

/-- The possible actions with their conditions, and the states that they lead to. -/
inductive Acts (c : Cluster S) (stop : Option Nat) : Action S → Cluster S → Prop where
  | electionTimeout (i : Fin n) (waits : (c.nodes i).mainFiber = .startFollower) :
      Acts c stop (.electionTimeout i)
        (c.perform i stop (electionTimeout i) fun request c => c.sendVotes request)
  | handleVote (place : Nat) (call : VoteCall n) (sent : c.voteRequests[place]? = some call) :
      Acts c stop (.handleVote place)
        (c.perform call.callee stop (requestVote call.request) fun result c => c.replyVote call result)
  | voteFailed (i j : Fin n) (election : Election n) (electing : (c.nodes i).mainFiber = .startCandidate election)
      (waiting : election.waiting j = true) :
      Acts c stop (.voteAnswered i j none)
        (c.perform i stop (voteAnswered election j none) fun _ => noteElected (c.nodes i).state i)
  | voteAnswered (i j : Fin n) (place : Nat) (election : Election n) (call : VoteCall n) (result : RequestVoteResult)
      (electing : (c.nodes i).mainFiber = .startCandidate election) (waiting : election.waiting j = true)
      (replied : c.voteReplies[place]? = some (call, result)) (callee : call.callee = j)
      (asked : call.request = election.request) :
      Acts c stop (.voteAnswered i j (some place))
        (c.perform i stop (voteAnswered election j (some result)) fun _ => noteElected (c.nodes i).state i)
  | electionEnd (i : Fin n) (election : Election n) (electing : (c.nodes i).mainFiber = .startCandidate election)
      (ended : ∀ j, election.waiting j = false) :
      Acts c stop (.electionEnd i) (c.perform i stop (startNode i) fun request c => c.sendVotes? request)
  | sessionSend (i j : Fin n) (fibers : LeaderFibers S) (leading : (c.nodes i).mainFiber = .startLeader fibers)
      (session : fibers.session j = .loop) (role : (c.nodes i).state = .leader) :
      Acts c stop (.sessionSend i j)
        (c.perform i stop (sessionSend i j fibers) fun request c => c.sendAppend j (fibers.issued j) request)
  | sessionEnd (i j : Fin n) (fibers : LeaderFibers S) (leading : (c.nodes i).mainFiber = .startLeader fibers)
      (session : fibers.session j = .loop) (role : (c.nodes i).state ≠ .leader) :
      Acts c stop (.sessionEnd i j) (c.perform i stop (setSession j fibers .finished) fun _ c => c)
  | handleAppend (place : Nat) (call : AppendCall S) (sent : c.appendRequests[place]? = some call) :
      Acts c stop (.handleAppend place)
        ({ c with handled := c.handled ++ [call] }.perform call.callee stop (appendEntries call.request)
          fun result c => { c with appendReplies := c.appendReplies ++ [(call, result)] })
  | appendFailed (i j : Fin n) (fibers : LeaderFibers S) (seq : Nat) (request : AppendEntriesRequest n S.Entry)
      (leading : (c.nodes i).mainFiber = .startLeader fibers) (session : fibers.session j = .calling seq request) :
      Acts c stop (.appendAnswered i j none)
        (c.perform i stop (appendAnswered i j fibers request none) fun _ c => c)
  | appendAnswered (i j : Fin n) (place : Nat) (fibers : LeaderFibers S) (seq : Nat)
      (request : AppendEntriesRequest n S.Entry) (call : AppendCall S) (result : AppendEntriesResult)
      (leading : (c.nodes i).mainFiber = .startLeader fibers) (session : fibers.session j = .calling seq request)
      (replied : c.appendReplies[place]? = some (call, result)) (callee : call.callee = j) (number : call.seq = seq)
      (own : call.request.leaderId = i) (asked : call.request.term = request.term) :
      Acts c stop (.appendAnswered i j (some place))
        (c.perform i stop (appendAnswered i j fibers request (some result))
          fun _ => noteCommit (c.nodes i).commitIndex i)
  | mainRound (i : Fin n) (fibers : LeaderFibers S) (leading : (c.nodes i).mainFiber = .startLeader fibers)
      (awake : fibers.mainSession = .starting ∨ fibers.mainSession = .ready) :
      Acts c stop (.mainRound i)
        (c.perform i stop (mainRound i fibers) fun _ => noteCommit (c.nodes i).commitIndex i)
  | leaderEnd (i : Fin n) (fibers : LeaderFibers S) (leading : (c.nodes i).mainFiber = .startLeader fibers)
      (joined : ∀ j, fibers.session j = .finished) (ended : fibers.mainSession = .finished) :
      Acts c stop (.leaderEnd i) (c.perform i stop (leaderEnd i) fun request c => c.sendVotes? request)
  | execute (i : Fin n) (request : S.Request) :
      Acts c stop (.execute i request)
        (c.perform i stop (execute i c.clock request) fun response => noteExecute i request response)
  | resume (i : Fin n) (tag : Nat) (call : Call S)
      (found : (c.nodes i).calls.find? (fun call => call.tag = tag) = some call) (signaled : call.signaled = true) :
      Acts c stop (.resume i tag)
        (c.perform i stop (resume call)
          fun response c => { c with answered := c.answered ++ [⟨i, tag, call.request, response, c.clock⟩] })
  | crash (i : Fin n) : Acts c stop (.crash i) (c.restart i (c.nodes i).disk)

/-- Every step is one of the possible actions. -/
theorem act_acts {c d : Cluster S} {stop : Option Nat} {action : Action S} (acted : c.act stop action = some d) :
    c.Acts stop action d := by
  cases action with
  | electionTimeout i =>
      simp only [act] at acted
      split at acted
      · rename_i waits
        cases acted
        exact .electionTimeout i waits
      · cases acted
  | handleVote place =>
      obtain ⟨call, sent, acted⟩ := Option.bind_eq_some_iff.mp acted
      cases acted
      exact .handleVote place call sent
  | voteAnswered i j reply =>
      simp only [act] at acted
      split at acted
      swap
      · cases acted
      rename_i election electing
      split at acted
      swap
      · cases acted
      rename_i waiting
      cases reply with
      | none =>
          cases acted
          exact .voteFailed i j election electing waiting
      | some place =>
          obtain ⟨⟨call, result⟩, replied, acted⟩ := Option.bind_eq_some_iff.mp acted
          dsimp only at acted
          split at acted
          swap
          · cases acted
          rename_i matching
          cases acted
          exact .voteAnswered i j place election call result electing waiting replied matching.1 matching.2
  | electionEnd i =>
      simp only [act] at acted
      split at acted
      swap
      · cases acted
      rename_i election electing
      split at acted
      swap
      · cases acted
      rename_i ended
      cases acted
      exact .electionEnd i election electing ended
  | sessionSend i j =>
      simp only [act] at acted
      split at acted
      swap
      · cases acted
      rename_i fibers leading
      split at acted
      swap
      · cases acted
      rename_i session
      split at acted
      swap
      · cases acted
      rename_i role
      cases acted
      exact .sessionSend i j fibers leading session role
  | sessionEnd i j =>
      simp only [act] at acted
      split at acted
      swap
      · cases acted
      rename_i fibers leading
      split at acted
      swap
      · cases acted
      rename_i session
      split at acted
      swap
      · cases acted
      rename_i role
      cases acted
      exact .sessionEnd i j fibers leading session role
  | handleAppend place =>
      obtain ⟨call, sent, acted⟩ := Option.bind_eq_some_iff.mp acted
      cases acted
      exact .handleAppend place call sent
  | appendAnswered i j reply =>
      simp only [act] at acted
      split at acted
      swap
      · cases acted
      rename_i fibers leading
      split at acted
      swap
      · cases acted
      rename_i seq request session
      cases reply with
      | none =>
          cases acted
          exact .appendFailed i j fibers seq request leading session
      | some place =>
          obtain ⟨⟨call, result⟩, replied, acted⟩ := Option.bind_eq_some_iff.mp acted
          dsimp only at acted
          split at acted
          swap
          · cases acted
          rename_i matching
          cases acted
          obtain ⟨callee, number, own, asked⟩ := matching
          exact .appendAnswered i j place fibers seq request call result leading session replied callee number own asked
  | mainRound i =>
      simp only [act] at acted
      split at acted
      swap
      · cases acted
      rename_i fibers leading
      split at acted
      swap
      · cases acted
      rename_i awake
      cases acted
      exact .mainRound i fibers leading awake
  | leaderEnd i =>
      simp only [act] at acted
      split at acted
      swap
      · cases acted
      rename_i fibers leading
      split at acted
      swap
      · cases acted
      rename_i ended
      cases acted
      refine .leaderEnd i fibers leading (fun j => ?_) ended.2
      have finished := ended.1 j
      split at finished
      · assumption
      · cases finished
  | execute i request =>
      cases acted
      exact .execute i request
  | resume i tag =>
      obtain ⟨call, found, acted⟩ := Option.bind_eq_some_iff.mp acted
      split at acted
      swap
      · cases acted
      rename_i signaled
      cases acted
      exact .resume i tag call found signaled
  | crash i =>
      cases acted
      exact .crash i

end Cluster

end Metamorphosis
