import Ember.Text.Basic
import Ember.Text.Ranges
import Ember.Text.Word
import Ember.Text.Printable
import Ember.Text.Quoted
import Ember.Text.Utf8
import Ember.Token.Basic
import Ember.Token.Scan
import Ember.Token.Spell
import Ember.Syntax.Basic
import Ember.Syntax.Parse
import Ember.Syntax.Source
import Ember.Syntax.Render
import Ember.Binary64
import Ember.Binary64.Tables
import Ember.Binary64.Power
import Ember.Crash
import Ember.Value.Basic
import Ember.Value.Arith
import Ember.Template
import Ember.Fault
import Ember.Value.Operators
import Ember.Store
import Ember.Event
import Ember.Eval
import Ember.Run
import Ember.Shell
import Ember.Main
import Ember.Proofs.WellFormed
import Ember.Proofs.ReadBack
import Ember.Proofs.RoundTrip
import Ember.Proofs.LongestMatch
import Ember.Proofs.TokenSpelling
import Ember.Proofs.Returns
import Ember.Proofs.Scopes
import Ember.Proofs.Invariant
import Ember.Proofs.Simulation
import Ember.Proofs.Escapes
import Ember.Proofs.Words
import Ember.Proofs.Provenance
import Ember.Proofs.Integers
import Ember.Proofs.Locality
import Ember.Proofs.LineJoin
import Ember.Proofs.Sessions
import Ember.Proofs.Lookahead
import Ember.Proofs.Misfit
import Ember.Proofs.ScopeWrites
import Ember.Proofs.FirstEnd
import Ember.Proofs.WrittenTokens
import Ember.Proofs.OperatorSpelling
import Ember.Proofs.Filling
import Ember.Proofs.Printf
import Ember.Proofs.TraceLevels
import Ember.Proofs.Names
import Ember.Proofs.ThisBinding
import Ember.Proofs.Relocation
import Ember.Proofs.Reset
import Ember.Proofs.Comparisons
import Ember.Proofs.MethodTables
import Ember.Proofs.ScopeChains
