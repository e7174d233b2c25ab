import HttpService.Listen.Startup
import HttpService.Proofs.Answering
import HttpService.Proofs.Breakage
import HttpService.Proofs.Capacity
import HttpService.Proofs.Capture
import HttpService.Proofs.Commit
import HttpService.Proofs.Curtailment
import HttpService.Proofs.Embedding
import HttpService.Proofs.Grammar
import HttpService.Proofs.Mutation
import HttpService.Proofs.Passage
import HttpService.Proofs.Persistence
import HttpService.Proofs.Readback
import HttpService.Proofs.Rebinding
import HttpService.Proofs.Reuse
import HttpService.Proofs.Rounds
import HttpService.Proofs.Tallying
import HttpService.Proofs.Target
import HttpService.Script.Clients
import HttpService.Script.Name
import HttpService.Session.Adapter
import HttpService.Session.Buffer
import HttpService.Session.Exchange
import HttpService.Session.Fields
import HttpService.Session.Reader
import HttpService.Session.Url
import HttpService.Proofs.Resetting
import HttpService.Proofs.Bounds
import HttpService.Proofs.Conservation
import HttpService.Proofs.Cookies
import HttpService.Proofs.Numerals
import HttpService.Proofs.Places
import HttpService.Proofs.Positions
import HttpService.Proofs.Cells
import HttpService.Proofs.Station
import HttpService.Proofs.Safety
