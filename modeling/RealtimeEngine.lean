import RealtimeEngine.Foundations.Runs
import RealtimeEngine.Foundations.Tables
import RealtimeEngine.Foundations.Json
import RealtimeEngine.Domain.Game
import RealtimeEngine.Room.Actor
import RealtimeEngine.Room.Exits
import RealtimeEngine.Room.Seats
import RealtimeEngine.Domain.PingPong
import RealtimeEngine.Domain.TicTacToe
import RealtimeEngine.Domain.Duel
import RealtimeEngine.Room.Sequencing
import RealtimeEngine.Room.Versions
import RealtimeEngine.Room.Coherence
import RealtimeEngine.Room.Termination
import RealtimeEngine.Room.Slots
import RealtimeEngine.Room.Timers
import RealtimeEngine.Matchmaking.Queue
import RealtimeEngine.Storage.Sessions
import RealtimeEngine.Transport.Envelope
import RealtimeEngine.Transport.Hub
import RealtimeEngine.Transport.Server
import RealtimeEngine.Transport.Moves
import RealtimeEngine.Transport.ActorMoves
import RealtimeEngine.Room.Broadcasts
import RealtimeEngine.Transport.Known
import RealtimeEngine.Transport.Links
import RealtimeEngine.Transport.Seating
import RealtimeEngine.Transport.Connected
import RealtimeEngine.Transport.Delivery
import RealtimeEngine.Transport.Freshness
import RealtimeEngine.Foundations.Lines
import RealtimeEngine.Matchmaking.Matchmaker
import RealtimeEngine.Matchmaking.Creation
import RealtimeEngine.Transport.Overflow
import RealtimeEngine.Transport.Matching
import RealtimeEngine.Transport.Sweeping
import RealtimeEngine.Transport.Searches
import RealtimeEngine.Transport.Memberships
import RealtimeEngine.Transport.Waiting
import RealtimeEngine.Transport.Ghosts
import RealtimeEngine.Domain.Patches
import RealtimeEngine.Room.Replies
import RealtimeEngine.Room.Verdicts
import RealtimeEngine.Config
import RealtimeEngine.Room.Submission
import RealtimeEngine.Transport.Heartbeat
import RealtimeEngine.Foundations.Keyspace
import RealtimeEngine.Storage.Leases
import RealtimeEngine.Storage.RedisSessions
import RealtimeEngine.Transport.Cluster
import RealtimeEngine.Transport.Resume
import RealtimeEngine.Foundations.Histories
import RealtimeEngine.Storage.SessionHistory
import RealtimeEngine.Transport.Registrations
import RealtimeEngine.Domain.Snapshots
import RealtimeEngine.Domain.Payloads
import RealtimeEngine.Domain.Reflex
import RealtimeEngine.Foundations.Bucket
import RealtimeEngine.RateLimit.TokenBucket
import RealtimeEngine.Domain.Calls
import RealtimeEngine.Room.Replay
import RealtimeEngine.Transport.Provenance
import RealtimeEngine.Domain.Following
import RealtimeEngine.Foundations.Replicas
import RealtimeEngine.Transport.Replicas
import RealtimeEngine.Transport.Ordering
import RealtimeEngine.Storage.LeaseTiming
import RealtimeEngine.Session.Tokens
import RealtimeEngine.Transport.Deadlock
import RealtimeEngine.Transport.Vouching
import RealtimeEngine.Foundations.Fields
import RealtimeEngine.Transport.FrontDoor
import RealtimeEngine.Transport.Pacing
import RealtimeEngine.Transport.Collecting
import RealtimeEngine.Transport.Redirects
